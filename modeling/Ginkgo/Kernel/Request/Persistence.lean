import Ginkgo.Kernel.Request.Runs

/-!
# Which calls fill and empty slots

Only a submission fills a slot and only the acknowledged release of the resources empties
one.  Every other call leaves each slot with its request, and the request with its owner,
its resources, what was handed out for it, and its end.
-/

namespace Ginkgo.Kernel.Request

open Ginkgo.Lib Ginkgo.Sysapi List

variable {O P : Type}

/-- The same request at a later time, with no action of it handed out in between. -/
structure Kin (r r' : KernelRequest O P) : Prop where
  id : r'.id = r.id
  owner : r'.owner = r.owner
  resources : r'.resources = r.resources
  published : r'.terminalPublicationDispatched = r.terminalPublicationDispatched
  released : r'.resourceReleaseDispatched = r.resourceReleaseDispatched
  ended : isTerminal r.state = true →
    r'.state = r.state ∧ r'.status = r.status ∧ r'.completedAtNs = r.completedAtNs
  held : r.resourceState ≠ .released → r'.resourceState ≠ .released

namespace Kin

variable {r r' r'' : KernelRequest O P} {e : Event O P}

theorem refl (r : KernelRequest O P) : Kin r r :=
  ⟨rfl, rfl, rfl, rfl, rfl, fun _ => ⟨rfl, rfl, rfl⟩, fun h => h⟩

theorem trans (h : Kin r r') (h' : Kin r' r'') : Kin r r'' where
  id := h'.id.trans h.id
  owner := h'.owner.trans h.owner
  resources := h'.resources.trans h.resources
  published := h'.published.trans h.published
  released := h'.released.trans h.released
  ended hterm := by
    obtain ⟨hst, hstatus, hcomp⟩ := h.ended hterm
    obtain ⟨hst', hstatus', hcomp'⟩ := h'.ended (hst ▸ hterm)
    exact ⟨hst'.trans hst, hstatus'.trans hstatus, hcomp'.trans hcomp⟩
  held hheld := h'.held (h.held hheld)

theorem amends {actions actions' : List RequestAction} (ha : Amends e r actions r' actions') :
    Kin r r' := by
  have hcont := Continues.amends ha
  refine ⟨hcont.id, ?_, ?_, ?_, ?_, hcont.ended, ?_⟩
  · cases ha <;> rfl
  · cases ha <;> rfl
  · cases ha <;> rfl
  · cases ha <;> rfl
  · cases ha with
    | free hfree hdraining => exact fun _ => nofun
    | queueRelease hterm howned hqueued => exact fun _ => nofun
    | _ => exact fun h => h

theorem finished (hlive : isTerminal r.state = false) (st : RequestState) (status : Status)
    (now : Nat) : Kin r (r.finished st status now) := by
  refine ⟨rfl, rfl, rfl, rfl, rfl, fun hterm => ?_, fun hheld => ?_⟩
  · rw [hlive] at hterm
    cases hterm
  · simp only [KernelRequest.finished, KernelRequest.concluded]
    split
    · rintro ⟨⟩
    · exact hheld

end Kin

def SlotKin (slot slot' : RequestSlot O P) : Prop :=
  slot'.generation = slot.generation ∧ slot'.retired = slot.retired ∧
    Option.Rel Kin slot.request slot'.request

theorem SlotKin.refl (slot : RequestSlot O P) : SlotKin slot slot := by
  refine ⟨rfl, rfl, ?_⟩
  cases slot.request with
  | none => exact .none
  | some r => exact .some (.refl r)

theorem SlotKin.trans {slot slot' slot'' : RequestSlot O P} (h : SlotKin slot slot')
    (h' : SlotKin slot' slot'') : SlotKin slot slot'' := by
  obtain ⟨hgen, hret, hreq⟩ := h
  obtain ⟨hgen', hret', hreq'⟩ := h'
  exact ⟨hgen'.trans hgen, hret'.trans hret,
    optionRel_comp (fun _ _ _ hkin hkin' => hkin.trans hkin') hreq hreq'⟩

theorem SlotKin.some {g : Nat} {r r' : KernelRequest O P} (h : Kin r r') :
    SlotKin ⟨g, false, some r⟩ ⟨g, false, some r'⟩ := ⟨rfl, rfl, .some h⟩

/-- Each slot of the one book is still that of the other. -/
def Book.Keeps (b b' : Book O P) : Prop := List.Forall₂ SlotKin b.slots b'.slots

/-- No request waits for being retired. -/
def Book.Tidy (b : Book O P) : Prop := ∀ r, b.Live r → r.resourceState ≠ .released

namespace Book.Keeps

variable {b b' b'' : Book O P}

theorem of_slots_eq (h : b'.slots = b.slots) : b.Keeps b' := by
  unfold Book.Keeps
  rw [h]
  exact forall₂_same.mpr fun slot _ => .refl slot

theorem trans (h : b.Keeps b') (h' : b'.Keeps b'') : b.Keeps b'' :=
  forall₂_comp (fun _ _ _ hab hbc => hab.trans hbc) h h'

theorem put {i g : Nat} {r r' : KernelRequest O P} (hr : b.Holds i g r) (hkin : Kin r r')
    (hslots : b'.slots = b.slots.set i ⟨g, false, some r'⟩) : b.Keeps b' := by
  unfold Book.Keeps
  rw [hslots]
  exact forall₂_set_self SlotKin.refl hr (.some hkin)

theorem holds (h : b.Keeps b') {i g : Nat} {r' : KernelRequest O P} (hr : b'.Holds i g r') :
    ∃ r, b.Holds i g r ∧ Kin r r' := by
  obtain ⟨slot, hslot, hgen, hret, hreq⟩ := forall₂_getElem?_right h hr
  obtain ⟨generation, retired, request⟩ := slot
  obtain rfl : g = generation := hgen
  obtain rfl : false = retired := hret
  cases hreq with
  | some hkin => exact ⟨_, hslot, hkin⟩

theorem later (h : b.Keeps b') {i g : Nat} {r : KernelRequest O P} (hr : b.Holds i g r) :
    ∃ r', b'.Holds i g r' ∧ Kin r r' := by
  obtain ⟨slot', hslot', hgen, hret, hreq⟩ := forall₂_getElem? h hr
  obtain ⟨generation, retired, request⟩ := slot'
  obtain rfl : generation = g := hgen
  obtain rfl : retired = false := hret
  cases hreq with
  | some hkin => exact ⟨_, hslot', hkin⟩

theorem tidy (h : b.Keeps b') (htidy : b.Tidy) : b'.Tidy := by
  rintro r' ⟨i, g, hr'⟩
  obtain ⟨r, hr, hkin⟩ := h.holds hr'
  exact hkin.held (htidy r ⟨i, g, hr⟩)

theorem unissued (h : b.Keeps b') {id : RequestId} (hid : b'.Unissued id) : b.Unissued id := by
  obtain ⟨i, g, slot', heq, hslot', hfuture⟩ := hid
  obtain ⟨slot, hslot, hgen, hret, hreq⟩ := forall₂_getElem?_right h hslot'
  refine ⟨i, g, slot, heq, hslot, ?_⟩
  rw [← hgen, ← hret]
  refine hfuture.imp_right fun ⟨hg, hnone, hfree⟩ => ⟨hg, ?_, hfree⟩
  rw [hnone] at hreq
  generalize slot.request = request at hreq
  cases hreq
  rfl

end Book.Keeps

/-- The event neither fills a slot nor hands out an action nor empties a slot. -/
def Event.IsQuiet : Event O P → Prop
  | .submitted _ _ | .action _ | .released _ => False
  | _ => True

theorem Silent.keeps (h : Silent e b b') (htidy : b.Tidy) : b.Keeps b' := by
  cases h with
  | amend hr ha => exact .put hr (.amends ha) rfl
  | finish st status now hr hlive hterm => exact .put hr (.finished hlive _ _ _) rfl
  | vacate hr hterm hq hact => exact .of_slots_eq rfl
  | release hq hidle => exact .of_slots_eq rfl
  | @retire i g r hr hretirable hidle =>
    -- only a released request is retired
    simp only [RequestRuntime.retirable, Bool.and_eq_true, decide_eq_true_eq] at hretirable
    exact absurd hretirable.1.1.1.2 (htidy r ⟨i, g, hr⟩)

theorem silents_keeps
    (h : Relation.ReflTransGen (Silent e) b b') (htidy : b.Tidy) : b.Keeps b' := by
  induction h with
  | refl => exact .of_slots_eq rfl
  | tail _ hlast ih => exact ih.trans (hlast.keeps (ih.tidy htidy))

theorem Visible.keeps (h : Visible b e b') (he : e.IsQuiet) : b.Keeps b' := by
  cases h with
  | submit sub now hslot hq hname | pop hr hacts hid | acknowledge hr hdisp howed => exact he.elim
  | dispatch now hr hst hq hact hqueued | requeue hr hst howned hq hact =>
    refine .put hr ?_ rfl
    refine ⟨rfl, rfl, rfl, rfl, rfl, fun hterm => ?_, fun h => h⟩
    rw [hst] at hterm
    cases hterm
  | own hr hst howned =>
    refine .put hr ?_ rfl
    exact ⟨rfl, rfl, rfl, rfl, rfl, fun _ => ⟨rfl, rfl, rfl⟩, fun _ => nofun⟩
  | observe => exact .of_slots_eq rfl

theorem star_keeps {events : List (Event O P)}
    (h : Star Book.Step b events b') (hquiet : ∀ e ∈ events, e.IsQuiet) (htidy : b.Tidy) :
    b.Keeps b' := by
  induction h with
  | refl => exact .of_slots_eq rfl
  | tail _ hstep ih =>
    obtain ⟨hvis, hsilent⟩ := hstep
    have hbef := ih fun e he => hquiet e (mem_append_left _ he)
    have hstep := hvis.keeps (hquiet _ (mem_append_right _ mem_cons_self))
    have hmid := hbef.trans hstep
    exact hmid.trans (silents_keeps hsilent (hmid.tidy htidy))

/-- The call is neither a submission nor one that handles an action. -/
def Op.IsQuiet : Op O P → Prop
  | .submit .. | .submitBatch .. | .nextAction | .acknowledgeResourceRelease _ => False
  | _ => True

namespace RequestRuntime

variable {s s' : RequestRuntime O P} {i g : Nat} {r : KernelRequest O P} {lims : RequestLimits}

theorem exec_isQuiet {op : Op O P} (hop : op.IsQuiet) : ∀ e ∈ (exec op s).1, e.IsQuiet := by
  cases op with
  | submit sub now | submitBatch subs outLen now | nextAction | acknowledgeResourceRelease id =>
    exact hop.elim
  | requeueActive id | markDeviceOwned id | cancel id now | acknowledgeCancel id now stopped
  | acknowledgeDrain id =>
    exact forall_onOk trivial
  | runWorker now budget =>
    intro e he
    rcases mem_append.mp he with he | he
    · obtain ⟨completion, -, rfl⟩ := mem_map.mp he
      trivial
    · rw [eq_of_mem_replicate he]
      trivial
  | _ => simp [exec, Event.IsQuiet]

theorem exec_keeps (h : Good lims s) (htidy : s.book.Tidy) {op : Op O P} (hop : op.IsQuiet) :
    s.book.Keeps (exec op s).2.book :=
  star_keeps (exec_star h op).1 (exec_isQuiet hop) htidy

theorem nextAction_keeps (hinv : Inv s.book) (htidy : s.book.Tidy) {act : RequestAction}
    {rest : List RequestAction} (hacts : s.actions = act :: rest) :
    s.nextAction.1 = some act ∧ ∃ i g r, s.book.Holds i g r ∧ act.Describes r ∧ act.kind ∈ kinds r ∧
      (s.book.put i g (dispatchAction act r)).Keeps s.nextAction.2.book := by
  obtain ⟨hsome, i, g, r, hr, hdesc, hvis, hsilent⟩ := nextAction_cons hinv hacts
  have htidy' : (s.book.put i g (dispatchAction act r)).Tidy := by
    intro x hx
    rcases ((hinv.replaced hr (dispatchAction_id act r)).iff x).mp hx with rfl | ⟨hx, -⟩
    · have hheld := htidy r ⟨i, g, hr⟩
      cases act <;> exact hheld
    · exact htidy x hx
  have hkeeps := silents_keeps hsilent htidy'
  refine ⟨hsome, i, g, r, hr, hdesc, ?_, hkeeps⟩
  rw [← hinv.outbox.owed r ⟨i, g, hr⟩]
  refine mem_map_of_mem (mem_filter.mpr ⟨?_, decide_eq_true hdesc.id_eq⟩)
  change act ∈ s.actions
  rw [hacts]
  exact mem_cons_self

theorem acknowledgeResourceRelease_empties (hinv : Inv s.book) (hr : s.book.Holds i g r)
    (hdisp : r.resourceReleaseDispatched = true) (howed : r.resourceState ≠ .released) :
    (s.acknowledgeResourceRelease r.id).1 = .ok () ∧
      (s.acknowledgeResourceRelease r.id).2.book.slots = s.book.slots.set i (.vacated g) := by
  have hsound := hinv.sound r ⟨i, g, hr⟩
  have hack := Visible.acknowledge hr hdisp howed
  obtain ⟨x, hx, rfl⟩ := holds_of_book hr
  let released : KernelRequest O P := { x with resourceState := .released }
  let s2 := (s.modifyRequest i fun request => { request with resourceState := .released })
    |>.unchargeResources x.resources
  have hslots : s2.slots = s.slots.set i ⟨g, false, some released⟩ :=
    congrArg RequestRuntime.slots (modifyRequest_eq hx _)
  have hheld : s2.Holds i g released := by
    unfold Holds
    rw [hslots]
    exact (getElem?_set_iff hx _ _ _).mpr (.inl ⟨rfl, rfl⟩)
  have hinv2 : Inv s2.book := by
    rw [show s2.book = _ from book_acknowledge hx]
    exact hinv.visible hack
  have hretirable : retirable released = true := by
    have hterm := hsound.releasing (.inr hdisp)
    have hpub := hsound.ordered hdisp
    have hcancel := hsound.quiet hdisp
    have hqueued := hsound.published hpub
    have hrel := hsound.dispatched hdisp
    simp only [KernelRequest.erase] at hterm hpub hcancel hqueued hrel
    simp [retirable, released, hterm, hpub, hcancel, hqueued, hrel]
  have hcall : s.acknowledgeResourceRelease x.id = (.ok (), s2.tryRetire x.id) := by
    have hdisp' : x.resourceReleaseDispatched = true := hdisp
    have howed' : x.resourceState ≠ .released := howed
    unfold acknowledgeResourceRelease
    rw [hx.validRequestIndex (slots_of_book hinv.slots)]
    simp only [hx.requestAt, hdisp', howed']
    rfl
  have hretire := tryRetire_eq hinv2 hheld hretirable
  rw [show x.erase.id = x.id from rfl, hcall]
  refine ⟨rfl, ?_⟩
  change ((s2.tryRetire released.id).slots.map RequestSlot.erase) = _
  rw [hretire]
  simp only [hslots, set_set, map_set, erase_vacated]
  rfl

theorem submitOne_fills {sub : RequestSubmission O P} {now : Nat} {id : RequestId}
    (h : s.submitOne sub now = some (id, s')) :
    ∃ i g, s.slots.findIdx? isVacant = some i ∧ s.slots[i]? = some ⟨g, false, none⟩ ∧
      id = .fromParts i g ∧ s'.book.slots =
        s.book.slots.set i ⟨g, false, some (.pending id sub now)⟩ := by
  simp only [submitOne, Option.bind_eq_bind, Option.bind_eq_some_iff] at h
  obtain ⟨i, hi, slot, hslot, j, hj, rfl, rfl⟩ := h
  obtain ⟨g, hg⟩ := slots_findIdx? hi
  rw [hslot] at hg
  cases hg
  obtain ⟨q, hq, hname⟩ := targetIndexOrVacant_eq_some hj
  refine ⟨i, g, hi, hslot, rfl, ?_⟩
  have henter := book_enter (.fromParts i g) now hslot hq (hname.imp_right And.left)
  have hbook := book_armDeadline (s := s.enter i j (.fromParts i g) sub now)
    (.fromParts i g) sub.deadlineNs
  rw [henter] at hbook
  exact congrArg Book.slots hbook

end RequestRuntime

end Ginkgo.Kernel.Request
