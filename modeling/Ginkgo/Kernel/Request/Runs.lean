import Ginkgo.Kernel.Request.Chronicle
import Ginkgo.Kernel.Request.Admission

/-!
# Runs of the request runtime

A run starts with empty tables of valid limits and makes any calls, at any times.  Every
call is a sequence of steps of the book, so what holds of every history of the book holds
of the calls.
-/

namespace Ginkgo.Kernel.Request

open Ginkgo.Lib Ginkgo.Sysapi List RequestRuntime RequestResources

variable {O P : Type}

namespace RequestRuntime

variable {s s' : RequestRuntime O P} {history : List (Event O P)} {limits : RequestLimits}
  {r : KernelRequest O P}

def Step (s : RequestRuntime O P) (events : List (Event O P)) (s' : RequestRuntime O P) : Prop :=
  ∃ op, exec op s = (events, s')

def execAll : List (Op O P) → RequestRuntime O P → List (Event O P) × RequestRuntime O P
  | [], s => ([], s)
  | op :: ops, s =>
    let (events, s) := exec op s
    let (history, s) := execAll ops s
    (events ++ history, s)

theorem run_execAll (ops : List (Op O P)) (s : RequestRuntime O P) :
    Star Step s (execAll ops s).1 (execAll ops s).2 := by
  induction ops generalizing s with
  | nil => exact .refl s
  | cons op ops ih => exact (Star.single ⟨op, rfl⟩).trans (ih (exec op s).2)

structure Good (limits : RequestLimits) (s : RequestRuntime O P) : Prop where
  inv : Inv s.book
  within : Within s.book
  valid : limits.isValid = true
  limits_eq : s.limits = limits

theorem step_limits {b b' : Book O P} {events : List (Event O P)} (h : b.Step events b') :
    b'.limits = b.limits := by
  obtain ⟨hvis, hsilent⟩ := h
  induction hsilent with
  | refl => cases hvis <;> rfl
  | tail _ hlast ih => cases hlast <;> exact ih

theorem star_limits {b b' : Book O P} {events : List (Event O P)}
    (h : Star Book.Step b events b') : b'.limits = b.limits := by
  induction h with
  | refl => rfl
  | tail _ hstep ih => exact (step_limits hstep).trans ih

theorem exec_star (h : Good limits s) (op : Op O P) :
    Star Book.Step s.book (exec op s).1 (exec op s).2.book ∧ Within (exec op s).2.book := by
  have hvalid : s.limits.isValid = true := h.limits_eq ▸ h.valid
  by_cases hop : op.IsOrdinary
  · have hstar := exec_star_of_ordinary hop h.inv
    exact ⟨hstar, h.within.star hstar (exec_submission?_of_ordinary hop)⟩
  have hbatch subs outLen now :
      Star Book.Step s.book (exec (.submitBatch subs outLen now) s).1
          (exec (.submitBatch subs outLen now) s).2.book ∧
        Within (exec (.submitBatch subs outLen now) s).2.book :=
    submitBatch_star h.inv h.within hvalid outLen now
  cases op with
  | submit sub now => exact hbatch [sub] 1 now
  | submitBatch subs outLen now => exact hbatch subs outLen now
  | _ => exact absurd trivial hop

theorem exec_good (h : Good limits s) (op : Op O P) : Good limits (exec op s).2 := by
  obtain ⟨hstar, hwithin⟩ := exec_star h op
  exact ⟨star_inv h.inv hstar, hwithin, h.valid, (star_limits hstar).trans h.limits_eq⟩

theorem run_star (h : Good limits s) (hrun : Star Step s history s') :
    Star Book.Step s.book history s'.book ∧ Good limits s' := by
  induction hrun with
  | refl => exact ⟨.refl _, h⟩
  | tail _ hstep ih =>
    obtain ⟨hstar, hgood⟩ := ih
    obtain ⟨op, hexec⟩ := hstep
    have hlast := (exec_star hgood op).1
    have hgood' := exec_good hgood op
    rw [hexec] at hlast hgood'
    exact ⟨hstar.trans hlast, hgood'⟩

/-! ## The empty runtime -/

theorem wp_allocTargets {perTarget count : Nat} {Q : Budget → Prop}
    {E : RequestError → Budget → Prop} (hQ : ∀ m, Q m) (hE : ∀ m, E .outOfMemory m) (m : Budget) :
    wp (allocTargets perTarget count) (fun _ m => Q m) E m := by
  induction count generalizing m with
  | zero => exact wp_pure (hQ m)
  | succ count ih => exact wp_bind (wp_allocCapacity (fun m' => ih m') hE)

theorem tryNewWithLimits_ok {memory memory' : Budget}
    (h : tryNewWithLimits limits memory = .ok s memory') :
    limits.isValid = true ∧ s = vacant limits := by
  have hwp : wp (tryNewWithLimits limits)
      (fun s _ => limits.isValid = true ∧ s = (vacant limits : RequestRuntime O P))
      (fun _ _ => True) memory := by
    refine wp_ite (fun _ => wp_throw trivial) fun hvalid => ?_
    have hvalid : limits.isValid = true := by simpa using hvalid
    refine wp_allocCapacity_bind fun _ => ?_
    refine wp_allocCapacity_bind fun _ => ?_
    refine wp_bind (wp_allocTargets (fun _ => ?_) (fun _ => trivial) _)
    refine wp_allocCapacity_bind fun _ => ?_
    refine wp_allocCapacity_bind fun _ => ?_
    split
    · exact wp_throw trivial
    · exact wp_allocCapacity_bind fun _ => wp_pure ⟨hvalid, rfl⟩
  have hok := wp_ok hwp h
  exact hok

section Vacant

variable (limits : RequestLimits)

theorem slot_vacant {slot : RequestSlot O P}
    (h : slot ∈ (vacant limits : RequestRuntime O P).book.slots) : slot = .vacant := by
  obtain ⟨slot', hslot', rfl⟩ := mem_map.mp h
  rw [eq_of_mem_replicate hslot']
  rfl

theorem target_vacant {j : Nat} {q : TargetQueue}
    (h : (vacant limits : RequestRuntime O P).book.targets[j]? = some q) : q = .vacant :=
  eq_of_mem_replicate (mem_of_getElem? h)

theorem not_live_vacant (r : KernelRequest O P) :
    ¬(vacant limits : RequestRuntime O P).book.Live r := by
  rintro ⟨i, g, hr⟩
  cases slot_vacant limits (mem_of_getElem? hr)

theorem usage_vacant {M : Type} [AddCommMonoid M] (f : KernelRequest O P → M) :
    (vacant limits : RequestRuntime O P).book.usage f = 0 := by
  refine sum_eq_zero fun x hx => ?_
  obtain ⟨slot, hslot, rfl⟩ := mem_map.mp hx
  rw [slot_vacant limits hslot]
  rfl

theorem inv_vacant (hvalid : limits.isValid = true) :
    Inv (vacant limits : RequestRuntime O P).book := by
  have hnone := not_live_vacant (O := O) (P := P) limits
  refine ⟨⟨?_, ?_, fun i slot hslot => ?_, fun i slot r hslot hr => ?_⟩, ?_,
    fun r hr => absurd hr (hnone r), ⟨fun i j q q' target hq _ htgt => ?_,
      fun j q hq => ?_, fun r hr => absurd hr (hnone r), fun r hr => absurd hr (hnone r)⟩,
    ⟨fun r hr => absurd hr (hnone r), forall_mem_nil _⟩, ?_⟩
  · simp [book, vacant]
  · simp only [RequestLimits.isValid, Bool.and_eq_true, decide_eq_true_eq] at hvalid
    exact hvalid.1.1.1.1.1.1.1.1.1.1.1.1.1.1.2
  · rw [slot_vacant limits (mem_of_getElem? hslot)]
    exact ⟨Nat.le_refl 1, show 1 ≤ u32Max by decide⟩
  · rw [slot_vacant limits (mem_of_getElem? hslot)] at hr
    cases hr
  · simp [book, vacant]
  · rw [target_vacant limits hq] at htgt
    cases htgt
  · rw [target_vacant limits hq]
    refine ⟨nodup_nil, fun id => ⟨fun hid => absurd hid not_mem_nil, ?_⟩, by rintro _ ⟨⟩⟩
    rintro ⟨r, hr, -⟩
    exact absurd hr (hnone r)
  · refine ⟨(usage_vacant limits _).symm, (usage_vacant limits _).symm, ?_,
      (usage_vacant limits _).symm, (usage_vacant limits _).symm⟩
    refine (sum_eq_zero fun x hx => ?_).symm
    obtain ⟨q, hq, rfl⟩ := mem_map.mp hx
    rw [eq_of_mem_replicate hq]
    rfl

theorem within_vacant : Within (vacant limits : RequestRuntime O P).book where
  system := by
    rw [usage_vacant]
    exact zero_le _
  counted := by
    rw [usage_vacant]
    exact zero_le _
  ownerRequests owner := by
    rw [usage_vacant]
    exact Nat.zero_le _
  ownerResources owner := by
    rw [usage_vacant]
    exact zero_le _
  targetRequests target := by
    rw [usage_vacant]
    exact Nat.zero_le _

theorem chronicle_vacant : Chronicle [] (vacant limits : RequestRuntime O P).book where
  published r hr := absurd hr (not_live_vacant limits r)
  released r hr := absurd hr (not_live_vacant limits r)
  once _ := ⟨Nat.zero_le _, Nat.zero_le _⟩
  ordered _ _ _ heq := by simp at heq
  freed r hr := absurd hr (not_live_vacant limits r)
  unissued _ _ := ⟨fun _ => rfl, nofun⟩

end Vacant

/-- What holds in every state of a run from the empty tables. -/
theorem run_spec {memory memory' : Budget} {s₀ : RequestRuntime O P}
    (hnew : tryNewWithLimits limits memory = .ok s₀ memory') (hrun : Star Step s₀ history s) :
    Good limits s ∧ Chronicle history s.book := by
  obtain ⟨hvalid, rfl⟩ := tryNewWithLimits_ok hnew
  have hgood : Good limits (vacant limits : RequestRuntime O P) :=
    ⟨inv_vacant limits hvalid, within_vacant limits, hvalid, rfl⟩
  obtain ⟨hstar, hgood'⟩ := run_star hgood hrun
  refine ⟨hgood', ?_⟩
  have hboth : Inv s.book ∧ Chronicle history s.book := by
    refine hstar.invariant (I := fun past b => Inv b ∧ Chronicle past b)
      ⟨hgood.inv, chronicle_vacant limits⟩ fun past b events b' hb hstep => ?_
    exact ⟨hb.1.step hstep, hb.2.step hb.1 hstep⟩
  exact hboth.2

theorem live_of_request {id : RequestId} (h : s.request id = some r) :
    s.book.Live r.erase ∧ r.id = id := by
  rcases s.lookup id with hnone | ⟨i, g, r', hr, hid, hvalid, hat⟩
  · simp [request, hnone] at h
  · rw [request, hvalid] at h
    obtain rfl : r' = r := Option.some.inj (hat.symm.trans h)
    exact ⟨⟨i, g, hr.book⟩, hid⟩

theorem request_of_live (hinv : Inv s.book) (h : s.book.Live r) :
    ∃ r', s.request r.id = some r' ∧ r'.erase = r := by
  obtain ⟨i, g, hr⟩ := h
  obtain ⟨r', hr', rfl⟩ := holds_of_book hr
  exact ⟨r', hr'.request (slots_of_book hinv.slots), rfl⟩

/-- Every publication and every release is handed out at most once, the release after the
publication.  An end is final; a completion that was recorded counts when the worker applies it.
A queued release is of a request that ended and that no device reaches: the last time a device got
it, an event that frees it came later. -/
theorem outcome_once {memory memory' : Budget} {s₀ : RequestRuntime O P}
    (hnew : tryNewWithLimits limits memory = .ok s₀ memory') (hrun : Star Step s₀ history s) :
    (∀ id, dispatched id .publish history ≤ 1 ∧ dispatched id .release history ≤ 1) ∧
    (∀ past id owner resources future,
      history = past ++ .action (.releaseResources id owner resources) :: future →
        0 < dispatched id .publish past) ∧
    (∀ later s', Star Step s later s' → ∀ id r r', s.request id = some r →
      isTerminal r.state = true → s'.request id = some r' →
        r'.state = r.state ∧ r'.status = r.status ∧ r'.completedAtNs = r.completedAtNs) ∧
    ∀ id owner resources, .releaseResources id owner resources ∈ s.actions →
      ∃ r, s.request id = some r ∧ isTerminal r.state = true ∧
        ∀ past future, history = past ++ .owned id :: future → ∃ e ∈ future, Frees e r := by
  obtain ⟨hgood, hchronicle⟩ := run_spec hnew hrun
  refine ⟨hchronicle.once, fun past id owner resources future heq => ?_,
    fun later s' hlater id r r' hr hterminal hr' => ?_, fun id owner resources hmem => ?_⟩
  · exact hchronicle.ordered past (.releaseResources id owner resources) future heq rfl
  · obtain ⟨hlive, rfl⟩ := live_of_request hr
    obtain ⟨hlive', hid⟩ := live_of_request hr'
    have hended := Ended.of_live hgood.inv hlive hterminal
    have hboth : Inv s'.book ∧ Ended r.id r.state r.status r.completedAtNs s'.book := by
      refine (run_star hgood hlater).1.invariant
        (I := fun _ b => Inv b ∧ Ended r.id r.state r.status r.completedAtNs b)
        ⟨hgood.inv, hended⟩ fun _ b events b' hb hstep => ?_
      exact ⟨hb.1.step hstep, hb.2.step hb.1 hstep⟩
    have hkept := hboth.2.kept r'.erase hlive' hid
    exact hkept
  · obtain ⟨r, hlive, hid, -⟩ := hgood.inv.outbox.described _ hmem
    have hsound := hgood.inv.sound r hlive
    have hqueued : r.releaseActionQueued = true := by
      rw [← release_mem_kinds, ← hgood.inv.outbox.owed r hlive]
      exact mem_map_of_mem (mem_filter.mpr ⟨hmem, decide_eq_true hid⟩)
    have hdraining : r.resourceState.isDraining = false := by
      rcases hsound.release_iff.mpr (.inl hqueued) with heq | heq <;> rw [heq] <;> rfl
    obtain ⟨r', hr', herase⟩ := request_of_live hgood.inv hlive
    subst herase
    rw [hid]
    refine ⟨r', hr', hsound.releasing (.inl hqueued), fun past future heq => ?_⟩
    obtain ⟨e, he, hfrees⟩ := hchronicle.freed r'.erase hlive hdraining past future heq
    exact ⟨e, he, by cases e <;> exact hfrees⟩

/-- Room for two requests of one owner. -/
def pairLimits : RequestLimits where
  systemCapacity := 2
  perOwnerRequests := 2
  perTargetRequests := 2
  maxBatch := 2
  perRequest := ⟨8, 8, 8⟩
  perOwner := ⟨8, 8, 8⟩
  system := ⟨8, 8, 8⟩
  deferredCompletionCapacity := 2

/-- A request that a device serves. -/
def served : List (Op Unit Unit) :=
  [.submit ⟨⟨1, 1⟩, ⟨5⟩, some ⟨3⟩, (), (), none, ⟨4, 0, 0⟩⟩ 10, .nextDispatch 11,
    .markDeviceOwned (.fromParts 0 1),
    .recordCompletion ⟨.fromParts 0 1, .ok, true⟩,
    .runWorker 12 ⟨1, 1⟩]

theorem tryNewWithLimits_pair : tryNewWithLimits pairLimits none =
    .ok (vacant pairLimits : RequestRuntime Unit Unit) none := rfl

theorem outcome_once_served :
    ∃ r, (execAll served (vacant pairLimits)).2.request (.fromParts 0 1) = some r ∧
      isTerminal r.state = true ∧ ∀ past future,
        (execAll served (vacant pairLimits)).1 = past ++ .owned (.fromParts 0 1) :: future →
          ∃ e ∈ future, Frees e r :=
  (outcome_once tryNewWithLimits_pair (run_execAll served _)).2.2.2
    (.fromParts 0 1) ⟨1, 1⟩ ⟨4, 0, 0⟩ (by decide +kernel)

/-! ## The tables add up -/

def live (s : RequestRuntime O P) : List (KernelRequest O P) := s.slots.filterMap (·.request)

def unreleased (requests : List (KernelRequest O P)) : List (KernelRequest O P) :=
  requests.filter fun r => r.resourceState ≠ .released

structure Accounted (s : RequestRuntime O P) : Prop where
  liveRequests : s.diagnostics.liveRequests = s.slots.countP fun slot => slot.request.isSome
  resources : s.diagnostics.resources = ((unreleased s.live).map (·.resources)).sum
  /-- No subtraction of what a request holds saturates. -/
  covered : ∀ r ∈ unreleased s.live, r.resources ≤ s.diagnostics.resources
  system : s.diagnostics.resources ≤ s.limits.system
  ownerRequests : ∀ owner, (s.live.countP fun r => r.owner = owner) ≤ s.limits.perOwnerRequests
  ownerResources : ∀ owner, ((unreleased (s.live.filter fun r => r.owner = owner)).map
    (·.resources)).sum ≤ s.limits.perOwner
  targetRequests : ∀ target, (s.live.countP fun r => r.target = target) ≤ s.limits.perTargetRequests
  names : (s.targets.filterMap (·.target)).Nodup
  queued : ∀ queue ∈ s.targets, queue.queued.Nodup ∧ ∀ id, id ∈ queue.queued ↔
    ∃ r ∈ s.live, r.id = id ∧ r.state = .pending ∧ queue.target = some r.target
  pending : ∀ r ∈ s.live, r.state = .pending → ∃ queue ∈ s.targets, queue.target = some r.target
  active : ∀ queue ∈ s.targets, ∀ id, queue.active = some id →
    ∃ r ∈ s.live, r.id = id ∧ r.state ≠ .pending ∧ queue.target = some r.target
  running : ∀ r ∈ s.live, Running r →
    ∃ queue ∈ s.targets, queue.target = some r.target ∧ queue.active = some r.id
  queuedRequests : s.diagnostics.queuedRequests = s.live.countP fun r => r.state = .pending
  activeRequests : s.diagnostics.activeRequests = s.targets.countP fun queue => queue.active.isSome
  actions : s.actions.length ≤ 3 * s.limits.systemCapacity

theorem book_live_of_mem (hinv : Inv s.book) (hr : r ∈ s.live) : s.book.Live r.erase := by
  obtain ⟨slot, hslot, hreq⟩ := mem_filterMap.mp hr
  obtain ⟨i, hi⟩ := mem_iff_getElem?.mp hslot
  obtain ⟨generation, retired, request⟩ := slot
  obtain rfl : request = some r := hreq
  obtain ⟨rfl, -⟩ := (slots_of_book hinv.slots).named i _ r hi rfl
  exact ⟨i, generation, Holds.book hi⟩

theorem mem_live_of_book (h : s.book.Live r) : ∃ r' ∈ s.live, r'.erase = r := by
  obtain ⟨i, g, hr⟩ := h
  obtain ⟨r', hr', herase⟩ := holds_of_book hr
  exact ⟨r', mem_filterMap.mpr ⟨_, mem_of_getElem? hr', rfl⟩, herase⟩

theorem usage_eq {M : Type} [AddCommMonoid M] {f : KernelRequest O P → M}
    (hf : ∀ r, f r.erase = f r) : s.book.usage f = (s.live.map f).sum := usage_book hf

theorem sum_charged (requests : List (KernelRequest O P)) :
    (requests.map charged).sum = ((unreleased requests).map (·.resources)).sum := by
  have hcharged : (charged : KernelRequest O P → RequestResources) =
      fun r => if r.resourceState ≠ .released then r.resources else 0 := by
    funext r
    rw [ite_not]
    rfl
  rw [hcharged, Lib.sum_map_ite]
  rfl

theorem usage_charged : s.book.usage charged = ((unreleased s.live).map (·.resources)).sum := by
  rw [usage_eq fun _ => rfl, sum_charged]

theorem usage_ownerCharged (owner : RequestOwner) : s.book.usage (ownerCharged owner) =
    ((unreleased (s.live.filter fun r => r.owner = owner)).map (·.resources)).sum := by
  rw [usage_eq fun _ => rfl, ← sum_charged]
  exact Lib.sum_map_ite _ _ _

theorem names_nodup (h : Lanes s.book.Live s.targets) : (s.targets.filterMap (·.target)).Nodup := by
  unfold List.Nodup
  rw [pairwise_filterMap, pairwise_iff_getElem]
  intro i j hi hj hlt target htgt target' htgt' heq
  subst heq
  exact Nat.ne_of_lt hlt (h.distinct i j _ _ target (getElem?_eq_getElem hi)
    (getElem?_eq_getElem hj) htgt htgt')

theorem length_kinds_le (r : KernelRequest O P) : (kinds r).length ≤ 3 := by
  grind [kinds]

theorem length_actions_le (h : Inv s.book) : s.actions.length ≤ 3 * s.limits.systemCapacity := by
  have hacts : s.actions.length = s.book.usage fun r => (kinds r).length := h.accounts.actions
  have hlen : s.book.slots.length = s.limits.systemCapacity := h.slots.length
  have hsum := sum_le_card_nsmul
    (s.book.slots.map fun slot => (slot.request.map fun r => (kinds r).length).getD 0) 3
  rw [length_map, hlen, nsmul_eq_mul, Nat.mul_comm] at hsum
  rw [hacts]
  refine hsum fun x hx => ?_
  obtain ⟨slot, -, rfl⟩ := mem_map.mp hx
  cases slot.request with
  | none => exact Nat.zero_le 3
  | some r => exact length_kinds_le r

theorem accounted_of_good (h : Good limits s) : s.Accounted := by
  have haccounts := h.inv.accounts
  have hlanes : Lanes s.book.Live s.targets := h.inv.lanes
  have hrsrc : s.diagnostics.resources = ((unreleased s.live).map (·.resources)).sum :=
    haccounts.resources.trans usage_charged
  refine ⟨?_, hrsrc, fun r hr => ?_, ?_, fun owner => ?_, fun owner => ?_, fun target => ?_,
    names_nodup hlanes, fun q hq => ?_, fun r hr hst => ?_,
    fun q hq id hid => ?_, fun r hr hrun => ?_, ?_, ?_, length_actions_le h.inv⟩
  · have hlive : s.diagnostics.liveRequests = s.book.usage fun _ => 1 := haccounts.live
    rw [hlive, usage_eq fun _ => rfl, map_const', sum_replicate,
      nsmul_eq_mul, Nat.mul_one]
    exact length_filterMap_eq_countP
  · rw [hrsrc]
    refine single_le_sum (fun x hx => ?_) _ (mem_map_of_mem hr)
    exact zero_le x
  · rw [hrsrc, ← usage_charged]
    exact h.within.system
  · have howner := h.within.ownerRequests owner
    rw [usage_eq fun _ => rfl] at howner
    rw [← Lib.sum_map_ite_one]
    exact howner
  · rw [← usage_ownerCharged]
    exact h.within.ownerResources owner
  · have htgt := h.within.targetRequests target
    rw [usage_eq fun _ => rfl] at htgt
    rw [← Lib.sum_map_ite_one]
    exact htgt
  · obtain ⟨j, hj⟩ := mem_iff_getElem?.mp hq
    have hlane := hlanes.lane j q hj
    refine ⟨hlane.nodup, fun id => (hlane.queued_iff id).trans ⟨?_, ?_⟩⟩
    · rintro ⟨r, hr, hpend⟩
      obtain ⟨r', hr', rfl⟩ := mem_live_of_book hr
      exact ⟨r', hr', hpend⟩
    · rintro ⟨r, hr, hpend⟩
      exact ⟨r.erase, book_live_of_mem h.inv hr, hpend⟩
  · obtain ⟨j, q, hq, hname⟩ := hlanes.pending _ (book_live_of_mem h.inv hr) hst
    exact ⟨q, mem_of_getElem? hq, hname⟩
  · obtain ⟨j, hj⟩ := mem_iff_getElem?.mp hq
    obtain ⟨r, hr, hname, hst, -, htgt⟩ := (hlanes.lane j q hj).active id hid
    obtain ⟨r', hr', rfl⟩ := mem_live_of_book hr
    exact ⟨r', hr', hname, hst, htgt⟩
  · obtain ⟨j, q, hq, hname, hact⟩ := hlanes.running _ (book_live_of_mem h.inv hr) hrun
    exact ⟨q, mem_of_getElem? hq, hname, hact⟩
  · have hqueued : s.diagnostics.queuedRequests = s.book.usage pendingCount := haccounts.queued
    rw [hqueued, usage_eq fun _ => rfl]
    exact Lib.sum_map_ite_one _ _
  · have hact : s.diagnostics.activeRequests = (s.targets.map activeCount).sum := haccounts.active
    rw [hact]
    have hcnt := Lib.sum_map_ite_one (fun q : TargetQueue => q.active.isSome = true) s.targets
    simp only [Bool.decide_eq_true] at hcnt
    exact hcnt

/-- In every state of a run the counters, queues and limits agree with the table. -/
theorem accounted {memory memory' : Budget} {s₀ : RequestRuntime O P}
    (hnew : tryNewWithLimits limits memory = .ok s₀ memory') (hrun : Star Step s₀ history s) :
    s.limits = limits ∧ s.Accounted := by
  obtain ⟨hgood, -⟩ := run_spec hnew hrun
  exact ⟨hgood.limits_eq, accounted_of_good hgood⟩

theorem accounted_served : (execAll served (vacant pairLimits)).2.live.length = 1 ∧
      (execAll served (vacant pairLimits)).2.Accounted :=
  ⟨by decide +kernel, (accounted tryNewWithLimits_pair (run_execAll served _)).2⟩

end RequestRuntime

end Ginkgo.Kernel.Request
