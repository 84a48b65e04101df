import Ginkgo.Kernel.AsyncBlock.Order

/-!
# Fences

While a request is live, every fence that comes after it is live, and holds back what comes
after the fence.  This needs that no fence is aborted before its time.
-/

namespace Ginkgo.Kernel.AsyncBlock

open Ginkgo.Lib List RequestSlot

variable {config : QueueConfig} {policy : Policy} {t t' : Table} {history events : List Event}
  {index : Nat} {slot : RequestSlot} {request : RequestSpec}

/-- The request is queued or active. -/
def Table.LiveAs (t : Table) (id : BlockRequestId) : Prop :=
  ∃ i slot, t.slots[i]? = some slot ∧ id = .fromParts i slot.generation ∧ slot.isLive = true

/-- A live request has only live fences behind it. -/
structure Fenced (t : Table) (history : List Event) : Prop where
  behind : ∀ (i : Nat) (slot : RequestSlot), t.slots[i]? = some slot → slot.isLive = true →
    ∀ (j : Nat) (id : BlockRequestId) (request : RequestSpec),
    slot.sequence ≤ j → (submissionsTo slot.device history)[j]? = some (id, request) →
      request.operation.isFence = true → t.LiveAs id
  started : ∀ slot ∈ t.slots, slot.isLive = true → slot.operation.isFence = true →
    0 < slot.nextChild → t.LastOf slot

theorem mem_submissions_of_getElem? {device : BlockDeviceId} {j : Nat}
    {submission : BlockRequestId × RequestSpec}
    (h : (submissionsTo device history)[j]? = some submission) :
    submission ∈ submissions history ∧ submission.2.device = device := by
  have hmem := mem_filter.mp (mem_of_getElem? h)
  exact ⟨hmem.1, of_decide_eq_true hmem.2⟩

/-- The place of a request in the history is the one that its slot knows. -/
theorem Placed.locate {j : Nat} {device : BlockDeviceId} (h : Placed index slot history)
    (hnodup : ((submissions history).map Prod.fst).Nodup)
    (hj : (submissionsTo device history)[j]? = some (.fromParts index slot.generation, request)) :
    request = slot.spec ∧ slot.device = device ∧ slot.sequence = j + 1 := by
  obtain ⟨hmem, hdev⟩ := mem_submissions_of_getElem? hj
  obtain ⟨hmem', -⟩ := mem_submissions_of_getElem? h.place
  have hsame : (BlockRequestId.fromParts index slot.generation, request) =
      (.fromParts index slot.generation, slot.spec) :=
    inj_on_of_nodup_map hnodup hmem hmem' rfl
  obtain rfl := (Prod.mk.inj hsame).2
  have hdev : slot.device = device := hdev
  refine ⟨rfl, hdev, ?_⟩
  have hplace := h.place
  rw [hdev] at hplace
  have hfilter : (submissionsTo device history).Nodup := hnodup.of_map.filter _
  obtain ⟨_, hget⟩ := List.getElem?_eq_some_iff.mp hplace
  obtain ⟨_, hget'⟩ := List.getElem?_eq_some_iff.mp hj
  have heq := hfilter.getElem_inj_iff.mp (hget.trans hget'.symm)
  have hpos := h.positive
  omega

/-- A live request has sent no command since, or it may be dispatched. -/
theorem SlotTurn.of_live {slot' : RequestSlot}
    (hturn : SlotTurn config policy t t' index slot events slot') (hevs : submissions events = [])
    (hlive : slot'.isLive = true) :
    slot.isLive = true ∧ SameRequest slot slot' ∧
      (slot'.nextChild = slot.nextChild ∨ (slot.operation.isFence = true → t.LastOf slot)) := by
  cases hturn with
  | same => exact ⟨hlive, .refl slot, .inl rfl⟩
  | submitted => cases hevs
  | stepped hstep =>
    refine ⟨hstep.goes.live hlive, hstep.goes.toSameRequest, ?_⟩
    cases hstep with
    | sent hdispatchable => exact .inr hdispatchable.fence
    | answered _ _ _ _ hanswered => exact .inl hanswered.nextChild
    | aborted out hslotLive => exact .inl (ages_abort hslotLive out).nextChild
    | notified => exact .inl rfl
    | failed => exact .inl rfl
  | taken =>
    rw [takenSlot_isLive] at hlive
    cases hlive

/-- No fence ends before its time. -/
theorem SlotTurn.stop (hpol : policy.fences = true) (hok : SlotOk config slot)
    (hstarted : slot.operation.isFence = true → 0 < slot.nextChild → t.LastOf slot)
    {slot' : RequestSlot} (hturn : SlotTurn config policy t t' index slot events slot')
    (hlive : slot.isLive = true) :
    slot'.isLive = true ∧ slot'.generation = slot.generation ∨
      (slot.operation.isFence = true → t.LastOf slot) ∨
      ∀ other ∈ t'.slots, other.isLive = true → other.device ≠ slot.device := by
  cases hturn with
  | same => exact .inl ⟨hlive, rfl⟩
  | submitted => exact .inl ⟨rfl, rfl⟩
  | stepped hstep =>
    cases hstep with
    | sent => exact .inl ⟨rfl, rfl⟩
    | answered _ _ _ hch =>
      have hlt := hok.child_lt hch
      exact .inr (.inl fun hfence => hstarted hfence (by omega))
    | aborted _ _ habort => exact .inr (.inl (habort hpol))
    | notified => exact .inl ⟨hlive, rfl⟩
    | failed _ _ _ hgone => exact .inr (.inr hgone)
  | taken hterm => exact absurd hterm (not_terminal_of_isLive hlive)

theorem Fenced.keep (h : Fenced t history) (hmove : Move config policy t events t')
    (hwf : t.Wf config) (hpol : policy.fences = true) (hord : Ordered t history)
    (hnodup : ((submissions history).map Prod.fst).Nodup) (hevs : submissions events = []) :
    Fenced t' (history ++ events) := by
  have hslots : ∀ (i : Nat) slot', t'.slots[i]? = some slot' → slot'.isLive = true →
      ∃ slot, t.slots[i]? = some slot ∧ slot.isLive = true ∧ SameRequest slot slot' ∧
        (slot'.nextChild = slot.nextChild ∨ (slot.operation.isFence = true → t.LastOf slot)) := by
    intro i slot' hi hlive
    obtain ⟨slot, hslot, hturn⟩ := hmove.slotTurn hwf hi
    exact ⟨slot, hslot, hturn.of_live hevs hlive⟩
  have hsame : ∀ device, submissionsTo device (history ++ events) =
    submissionsTo device history := by
    intro device
    rw [submissionsTo_append]
    unfold submissionsTo
    rw [hevs, filter_nil, append_nil]
  refine ⟨fun i slot' hi hlive j id request hj hreq hfence => ?_,
    fun slot' hmem hlive hfence hstarted => ?_⟩
  · obtain ⟨slot, hslot, hold, hreqSame, -⟩ := hslots i slot' hi hlive
    rw [hsame, hreqSame.device] at hreq
    rw [hreqSame.sequence] at hj
    obtain ⟨k, fence, hk, rfl, hfenceLive⟩ := h.behind i slot hslot hold j id request hj hreq hfence
    obtain ⟨rfl, hdev, hseq⟩ := (hord.placed k fence hk
      (held_of_isLive hfenceLive)).locate hnodup hreq
    have hmem := mem_of_getElem? hk
    obtain ⟨fence', hk', hturn⟩ := hmove.slotTurn_of hwf hk
    rcases hturn.stop hpol (hwf.slotOk fence hmem) (h.started fence hmem hfenceLive) hfenceLive with
      ⟨hlive', hgen⟩ | hlast | hgone
    · exact ⟨k, fence', hk', by rw [hgen], hlive'⟩
    · have hdead := hlast hfence slot (mem_of_getElem? hslot) hdev.symm (by omega)
      exact nomatch hold.symm.trans hdead
    · exact absurd (hreqSame.device.trans hdev.symm) (hgone slot' (mem_of_getElem? hi) hlive)
  · obtain ⟨i, hi⟩ := mem_iff_getElem?.mp hmem
    obtain ⟨slot, hslot, hold, hreqSame, hch⟩ := hslots i slot' hi hlive
    rw [hreqSame.operation] at hfence
    have hlast : t.LastOf slot := by
      rcases hch with hnext | hlast
      · exact h.started slot (mem_of_getElem? hslot) hold hfence (hnext ▸ hstarted)
      · exact hlast hfence
    intro other' hother' hdev hseq
    rw [Bool.eq_false_iff]
    intro hotherLive
    obtain ⟨k, hk⟩ := mem_iff_getElem?.mp hother'
    obtain ⟨other, hother, hotherOld, hotherSame, -⟩ := hslots k other' hk hotherLive
    rw [hotherSame.device, hreqSame.device] at hdev
    rw [hotherSame.sequence, hreqSame.sequence] at hseq
    have hdead := hlast other (mem_of_getElem? hother) hdev hseq
    exact nomatch hotherOld.symm.trans hdead

theorem Fenced.submit (h : Fenced t history) (hord : Ordered t history)
    {d childCount : Nat} {device : DeviceSlot} (hslot : t.slots[index]? = some slot)
    (hfree : slot.state = .free) (hdev : t.devices[d]? = some device)
    (hpres : device.present = true)
    (hname : request.device = .fromParts d device.generation)
    (hslots : t'.slots = t.slots.set index { AsyncBlockQueue.acceptedSlot request slot.generation
        device.nextSequence device.nextOrderingEpoch childCount with queuedEntry := true }) :
    Fenced t' (history ++ [.submitted (.fromParts index slot.generation) request]) := by
  have hever := hord.present device (mem_of_getElem? hdev) hpres
  have hseq := (hord.next d device hdev hever).1
  rw [← hname] at hseq
  generalize hnew : { AsyncBlockQueue.acceptedSlot request slot.generation
    device.nextSequence device.nextOrderingEpoch childCount with queuedEntry := true } =
      new at hslots
  have hnewSeq : new.sequence = device.nextSequence := by rw [← hnew]; rfl
  have hnewDev : new.device = request.device := by rw [← hnew]; rfl
  have hnewLive : new.isLive = true := by rw [← hnew]; rfl
  have hnewGen : new.generation = slot.generation := by rw [← hnew]; rfl
  have hcases := getElem?_set_iff hslot new
  have hdead : slot.isLive = false := by
    unfold isLive
    rw [hfree]
    rfl
  have hlive : ∀ id, t.LiveAs id → t'.LiveAs id := by
    rintro id ⟨k, other, hk, rfl, hother⟩
    refine ⟨k, other, ?_, rfl, hother⟩
    rw [hslots]
    refine (hcases k other).mpr (.inr ⟨?_, hk⟩)
    rintro rfl
    cases hslot.symm.trans hk
    exact nomatch hdead.symm.trans hother
  have hlast : t'.LiveAs (.fromParts index slot.generation) := by
    refine ⟨index, new, ?_, by rw [hnewGen], hnewLive⟩
    rw [hslots]
    exact (hcases _ _).mpr (.inl ⟨rfl, rfl⟩)
  refine ⟨fun i other hi hotherLive j id r hj hr hfence => ?_,
    fun other hmem hotherLive hfence hstarted => ?_⟩
  · rw [hslots] at hi
    rw [submissionsTo_append, submissionsTo_submitted] at hr
    rcases (hcases i other).mp hi with ⟨-, rfl⟩ | ⟨-, hi⟩
    · -- nothing comes after the newest request
      rw [hnewDev, if_pos rfl] at hr
      have hlt := lt_length hr
      rw [length_append, length_singleton] at hlt
      omega
    · split at hr
      · rename_i hsame
        rcases Nat.lt_or_ge j (submissionsTo other.device history).length with hlt | hge
        · rw [getElem?_append_left hlt] at hr
          exact hlive id (h.behind i other hi hotherLive j id r hj hr hfence)
        · rw [getElem?_append_right hge] at hr
          have hmem := mem_of_getElem? hr
          obtain ⟨rfl, -⟩ := Prod.mk.inj (mem_singleton.mp hmem)
          exact hlast
      · rw [append_nil] at hr
        exact hlive id (h.behind i other hi hotherLive j id r hj hr hfence)
  · rw [hslots] at hmem
    rcases mem_or_eq_of_mem_set hmem with hother | rfl
    · have hold := h.started other hother hotherLive hfence hstarted
      intro third hthird hdevSame hbef
      rw [hslots] at hthird
      rcases mem_or_eq_of_mem_set hthird with hthird | rfl
      · exact hold third hthird hdevSame hbef
      obtain ⟨k, hk⟩ := mem_iff_getElem?.mp hother
      have hplace := (hord.placed k other hk (held_of_isLive hotherLive)).place
      rw [← hdevSame, hnewDev] at hplace
      have hlt := lt_length hplace
      omega
    · rw [← hnew] at hstarted
      exact absurd hstarted (Nat.lt_irrefl 0)

theorem Move.fenced (hmove : Move config policy t events t') (hwf : t.Wf config)
    (hpol : policy.fences = true) (hchron : Chronicle config t history)
    (hord : Ordered t history) (h : Fenced t history) : Fenced t' (history ++ events) := by
  have hkeep := h.keep hmove hwf hpol hord hchron.submissions_nodup
  cases hmove with
  | submit hslot hfree hdev hpres hname =>
    exact h.submit hord hslot hfree hdev hpres hname rfl
  | advance =>
    refine hkeep ?_
    split <;> rfl
  | _ => exact hkeep rfl

theorem fenceCount_take_lt {requests : List (BlockRequestId × RequestSpec)} {j k : Nat}
    {sub : BlockRequestId × RequestSpec} (hj : requests[j]? = some sub)
    (hfence : sub.2.operation.isFence = true) (hlt : j < k) :
    fenceCount (requests.take j) < fenceCount (requests.take k) := by
  obtain ⟨hlen, rfl⟩ := List.getElem?_eq_some_iff.mp hj
  have hsplit : requests.take k = requests.take j ++ requests[j] ::
    (requests.drop (j + 1)).take (k - j - 1) := by
    rw [← take_append_drop j (requests.take k), take_take, Nat.min_eq_left (by omega),
      drop_take, drop_eq_getElem_cons hlen]
    obtain ⟨m, hm⟩ : ∃ m, k - j = m + 1 := ⟨k - j - 1, by omega⟩
    rw [hm, take_succ_cons, Nat.add_sub_cancel]
  rw [hsplit, fenceCount_append]
  unfold fenceCount
  rw [countP_cons_of_pos (p := fun x : BlockRequestId × RequestSpec =>
    x.2.operation.isFence) hfence]
  omega

/-- When a request may be dispatched, nothing is live that a fence keeps before it. -/
theorem Fenced.of_dispatchable (h : Fenced t history) (hord : Ordered t history)
    (hnodup : ((submissions history).map Prod.fst).Nodup) (hslot : t.slots[index]? = some slot)
    (hready : t.Dispatchable slot) {i j : Nat} {id fence : BlockRequestId}
    {fenceRequest : RequestSpec}
    (hfencePlace : (submissionsTo slot.device history)[j]? = some (fence, fenceRequest))
    (hfence : fenceRequest.operation.isFence = true) (hj : j < slot.sequence)
    (hplace : (submissionsTo slot.device history)[i]? = some (id, request)) (hij : i < j) :
    ¬t.LiveAs id := by
  rintro ⟨k, earlier, hk, rfl, hlive⟩
  have hheld := held_of_isLive hlive
  obtain ⟨rfl, hdev, hseq⟩ := (hord.placed k earlier hk hheld).locate hnodup hplace
  cases hkind : slot.operation.isFence with
  | true =>
    have hdead := hready.fence hkind earlier (mem_of_getElem? hk) hdev (by omega)
    exact nomatch hlive.symm.trans hdead
  | false =>
    rw [← hdev] at hfencePlace
    obtain ⟨m, fenceSlot, hm, rfl, hfenceLive⟩ := h.behind k earlier hk hlive j fence fenceRequest
      (by omega) hfencePlace hfence
    have hplacedFence := hord.placed m fenceSlot hm (held_of_isLive hfenceLive)
    obtain ⟨rfl, hfenceDev, hfenceSeq⟩ := hplacedFence.locate hnodup hfencePlace
    have hplaced := hord.placed index slot hslot (held_of_isLive hready.live)
    have hne : j ≠ slot.sequence - 1 := by
      rintro rfl
      rw [hdev, hplaced.place] at hfencePlace
      have hspec := (Prod.mk.inj (Option.some.inj hfencePlace)).2
      rw [← hspec] at hfence
      exact nomatch hkind.symm.trans hfence
    have hep : fenceSlot.orderingEpoch < slot.orderingEpoch := by
      have hcnt := fenceCount_take_lt hfencePlace hfence (show j < slot.sequence - 1 by omega)
      rw [hplacedFence.fences, hplaced.fences, hfenceDev, hfenceSeq, Nat.add_sub_cancel]
      rw [hdev] at hcnt ⊢
      omega
    have hdead := hready.data hkind fenceSlot (mem_of_getElem? hm) (hfenceDev.trans hdev) hep hfence
    exact nomatch hfenceLive.symm.trans hdead

end Ginkgo.Kernel.AsyncBlock
