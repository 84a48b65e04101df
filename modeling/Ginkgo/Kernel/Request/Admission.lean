import Ginkgo.Kernel.Request.Steps

/-!
# Limits

Submissions are admitted only within the limits, and nothing else adds to what is used.
-/

namespace Ginkgo.Kernel.Request

open Ginkgo.Lib Ginkgo.Sysapi

variable {O P : Type}

section

open RequestResources

def ownerCount (owner : RequestOwner) (r : KernelRequest O P) : Nat :=
  if r.owner = owner then 1 else 0

def ownerCharged (owner : RequestOwner) (r : KernelRequest O P) : RequestResources :=
  if r.owner = owner then RequestRuntime.charged r else 0

def targetCount (target : RequestTarget) (r : KernelRequest O P) : Nat :=
  if r.target = target then 1 else 0

/-- The largest amounts that are counted. -/
def RequestResources.wordMax : RequestResources := ⟨Lib.wordMax, Lib.wordMax, Lib.wordMax⟩

structure Within (b : Book O P) : Prop where
  system : b.usage RequestRuntime.charged ≤ b.limits.system
  counted : b.usage RequestRuntime.charged ≤ .wordMax
  ownerRequests : ∀ owner, b.usage (ownerCount owner) ≤ b.limits.perOwnerRequests
  ownerResources : ∀ owner, b.usage (ownerCharged owner) ≤ b.limits.perOwner
  targetRequests : ∀ target, b.usage (targetCount target) ≤ b.limits.perTargetRequests

namespace RequestResources

variable {a b c x y : RequestResources}

theorem le_of_add_eq (h : a + x = b + y) (hle : y ≤ x) : a ≤ b := by
  have hcopied := congrArg copiedBytes h
  have hpinned := congrArg pinnedPages h
  have hshared := congrArg sharedBytes h
  simp only [add_copiedBytes, add_pinnedPages, add_sharedBytes] at hcopied hpinned hshared
  obtain ⟨h1, h2, h3⟩ := hle
  refine ⟨?_, ?_, ?_⟩ <;> omega

instance : IsOrderedAddMonoid RequestResources where
  add_le_add_left _ _ h _ := ⟨Nat.add_le_add_right h.1 _, Nat.add_le_add_right h.2.1 _,
    Nat.add_le_add_right h.2.2 _⟩

theorem zero_le (a : RequestResources) : 0 ≤ a := ⟨Nat.zero_le _, Nat.zero_le _, Nat.zero_le _⟩

theorem checkedAdd_eq_some (h : a.checkedAdd b = some c) : c = a + b ∧ c ≤ .wordMax := by
  unfold checkedAdd at h
  cases hcopied : Lib.checkedAdd a.copiedBytes b.copiedBytes with
  | none => simp [hcopied] at h
  | some copied =>
    cases hpinned : Lib.checkedAdd a.pinnedPages b.pinnedPages with
    | none => simp [hpinned] at h
    | some pinned =>
      cases hshared : Lib.checkedAdd a.sharedBytes b.sharedBytes with
      | none => simp [hshared] at h
      | some shared =>
        obtain ⟨rfl, h1⟩ := checkedAdd_some hcopied
        obtain ⟨rfl, h2⟩ := checkedAdd_some hpinned
        obtain ⟨rfl, h3⟩ := checkedAdd_some hshared
        simp only [hcopied, hpinned, hshared, Option.bind_eq_bind, Option.bind_some,
          Option.pure_def, Option.some.injEq] at h
        subst h
        exact ⟨rfl, h1, h2, h3⟩

theorem saturatingAdd_eq (h : a + b ≤ .wordMax) : a.saturatingAdd b = a + b := by
  obtain ⟨h1, h2, h3⟩ := h
  unfold saturatingAdd
  rw [Lib.saturatingAdd_eq h1, Lib.saturatingAdd_eq h2, Lib.saturatingAdd_eq h3]
  rfl

end RequestResources

/-! ## Nothing but a submission adds -/

def Event.submission? : Event O P → Option (RequestSubmission O P)
  | .submitted _ submission => some submission
  | _ => none

namespace Within

variable {b b' : Book O P} {i g : Nat} {r r' : KernelRequest O P} {e : Event O P}

variable (h : Within b)
include h

theorem of_usage_le (hlimits : b'.limits = b.limits)
    (hcharged : b'.usage RequestRuntime.charged ≤ b.usage RequestRuntime.charged)
    (howner : ∀ owner, b'.usage (ownerCount owner) ≤ b.usage (ownerCount owner))
    (hrsrc : ∀ owner, b'.usage (ownerCharged owner) ≤ b.usage (ownerCharged owner))
    (htgt : ∀ target, b'.usage (targetCount target) ≤ b.usage (targetCount target)) :
    Within b' := by
  constructor
  · rw [hlimits]
    exact hcharged.trans h.system
  · exact hcharged.trans h.counted
  · intro owner
    rw [hlimits]
    exact (howner owner).trans (h.ownerRequests owner)
  · intro owner
    rw [hlimits]
    exact (hrsrc owner).trans (h.ownerResources owner)
  · intro target
    rw [hlimits]
    exact (htgt target).trans (h.targetRequests target)

theorem put (hr : b.Holds i g r) {targets : List TargetQueue} {actions : List RequestAction}
    {diag : RequestRuntimeDiagnostics} (howner : r'.owner = r.owner) (htgt : r'.target = r.target)
    (hcharged : RequestRuntime.charged r' ≤ RequestRuntime.charged r) :
    Within { b.put i g r' with
      targets := targets
      actions := actions
      diagnostics := diag } := by
  refine h.of_usage_le rfl (le_of_add_eq (usage_put _ hr r') hcharged)
    (fun owner => ?_) (fun owner => ?_) fun target => ?_
  · have hsum := usage_put (ownerCount owner) hr r'
    unfold ownerCount at hsum ⊢
    rw [howner] at hsum
    exact (Nat.add_right_cancel hsum).le
  · refine le_of_add_eq (usage_put _ hr r') ?_
    unfold ownerCharged
    rw [howner]
    split
    · exact hcharged
    · exact le_rfl
  · have hsum := usage_put (targetCount target) hr r'
    unfold targetCount at hsum ⊢
    rw [htgt] at hsum
    exact (Nat.add_right_cancel hsum).le

theorem retire (hr : b.Holds i g r) (diag : RequestRuntimeDiagnostics) :
    Within { b with slots := b.slots.set i (.vacated g), diagnostics := diag } := by
  have hgone : ∀ f : KernelRequest O P → RequestResources,
      Book.usage f { b with slots := b.slots.set i (.vacated g), diagnostics := diag } ≤
        b.usage f := by
    intro f
    have hsum := usage_vacated f hr diag
    exact le_of_add_eq hsum (zero_le _)
  have hgone' : ∀ f : KernelRequest O P → Nat,
      Book.usage f { b with slots := b.slots.set i (.vacated g), diagnostics := diag } ≤
        b.usage f := by
    intro f
    have hsum := usage_vacated f hr diag
    omega
  exact h.of_usage_le rfl (hgone _) (fun _ => hgone' _) (fun _ => hgone _) fun _ => hgone' _

theorem silent (hs : Silent e b b') : Within b' := by
  cases hs with
  | amend hr ha => exact h.put hr (by cases ha <;> rfl) (by cases ha <;> rfl) ha.charged_eq.le
  | finish st status now hr hlive hterm =>
    exact h.put hr rfl rfl (KernelRequest.charged_finished ..).le
  | vacate hr hterm hq hact | release hq hidle => exact { h with }
  | retire hr hretirable hidle => exact h.retire hr _

theorem silents (hs : Relation.ReflTransGen (Silent e) b b') : Within b' := by
  induction hs with
  | refl => exact h
  | tail _ hlast ih => exact ih.silent hlast

theorem visible (hv : Visible b e b') (he : e.submission? = none) : Within b' := by
  cases hv with
  | submit sub now hslot hq hname => cases he
  | dispatch now hr hst hq hact hqueued => exact h.put hr rfl rfl le_rfl
  | requeue hr hst howned hq hact => exact h.put hr rfl rfl le_rfl
  | own hr hst howned =>
    refine h.put hr rfl rfl ?_
    simp [RequestRuntime.charged, howned]
  | @pop i g r act rest hr hacts hid => refine h.put hr ?_ ?_ ?_ <;> cases act <;> rfl
  | acknowledge hr hdisp howed => exact h.put hr rfl rfl (zero_le _)
  | observe he => exact h

theorem star {events : List (Event O P)} (hs : Star Book.Step b events b')
    (hevs : ∀ e ∈ events, e.submission? = none) : Within b' := by
  induction hs with
  | refl => exact h
  | tail _ hstep ih =>
    obtain ⟨hvis, hsilent⟩ := hstep
    have hbef := ih fun e he => hevs e (List.mem_append_left _ he)
    exact (hbef.visible hvis (hevs _ (by simp))).silents hsilent

end Within

namespace RequestRuntime

variable {s : RequestRuntime O P}

theorem exec_submission?_of_ordinary {op : Op O P} (hop : op.IsOrdinary) :
    ∀ e ∈ (exec op s).1, e.submission? = none := by
  cases op with
  | submit sub now => exact hop.elim
  | submitBatch subs outLen now => exact hop.elim
  | requeueActive id | markDeviceOwned id | cancel id now
  | acknowledgeCancel id now deviceStopped | acknowledgeDrain id | acknowledgeResourceRelease id =>
    exact forall_onOk rfl
  | runWorker now budget =>
    intro e he
    rcases List.mem_append.mp he with he | he
    · obtain ⟨completion, -, rfl⟩ := List.mem_map.mp he
      rfl
    · rw [List.eq_of_mem_replicate he]
      rfl
  | _ => simp [exec, Event.submission?]

end RequestRuntime

end

/-!
## Submission

A batch passes the preflight only if the limits still hold with all of it, and the commit
enters each member as a pending request at the end of the FIFO of its target.
-/

open List Option RequestSubmission

/-- What a list of submissions adds up to. -/
def total {M : Type} [AddCommMonoid M] (f : RequestSubmission O P → M)
    (submissions : List (RequestSubmission O P)) : M := (submissions.map f).sum

namespace RequestRuntime

variable {s s' : RequestRuntime O P} {submissions : List (RequestSubmission O P)}
  {resources : RequestResources} {submission : RequestSubmission O P}

/-! ## The preflight -/

theorem checkResources_eq_ok {limit : RequestResources}
    (h : checkResources resources limit = .ok ()) : resources ≤ limit := by
  unfold checkResources at h
  split at h
  · cases h
  split at h
  · cases h
  split at h
  · cases h
  exact ⟨by omega, by omega, by omega⟩

theorem batchResources_eq_ok {limit resources' : RequestResources} (hle : resources ≤ .wordMax)
    (h : batchResources limit submissions resources = .ok resources') :
    resources' = resources + total RequestSubmission.resources submissions ∧
      resources' ≤ .wordMax := by
  induction submissions generalizing resources with
  | nil =>
    cases h
    exact ⟨(add_zero _).symm, hle⟩
  | cons submission rest ih =>
    unfold batchResources at h
    cases hcheck : checkResources submission.resources limit with
    | error error => simp [hcheck, bind, Except.bind] at h
    | ok value =>
      cases hadd : resources.checkedAdd submission.resources with
      | none => simp [hcheck, hadd, bind, Except.bind] at h
      | some sum =>
        simp only [hcheck, hadd] at h
        obtain ⟨rfl, hsum⟩ := RequestResources.checkedAdd_eq_some hadd
        obtain ⟨heq, hmax⟩ := ih hsum h
        refine ⟨?_, hmax⟩
        rw [heq, add_assoc]
        rfl

theorem addOwnerResources_eq_ok {resources' : RequestResources}
    (h : addOwnerResources submissions resources = .ok resources') :
    resources' = resources + total RequestSubmission.resources submissions := by
  induction submissions generalizing resources with
  | nil =>
    cases h
    exact (add_zero _).symm
  | cons submission rest ih =>
    unfold addOwnerResources at h
    cases hadd : resources.checkedAdd submission.resources with
    | none => simp [hadd] at h
    | some sum =>
      simp only [hadd] at h
      obtain ⟨rfl, -⟩ := RequestResources.checkedAdd_eq_some hadd
      rw [ih h, add_assoc]
      rfl

/-- Counting as the preflight does, when nothing saturates. -/
theorem foldl_ownerUsage (owner : RequestOwner) (requests : List (KernelRequest O P)) (count : Nat)
    (resources : RequestResources) (hcnt : count + (requests.map (ownerCount owner)).sum ≤ wordMax)
    (hrsrc : resources + (requests.map (ownerCharged owner)).sum ≤ .wordMax) :
    requests.foldl (fun (count, resources) request =>
      if request.owner = owner then
        (saturatingAdd count 1, resources.saturatingAdd (charged request))
      else (count, resources)) (count, resources) =
      (count + (requests.map (ownerCount owner)).sum,
        resources + (requests.map (ownerCharged owner)).sum) := by
  induction requests generalizing count resources with
  | nil => simp
  | cons request rest ih =>
    simp only [map_cons, sum_cons, foldl_cons] at hcnt hrsrc ⊢
    by_cases howner : request.owner = owner
    · have hone : ownerCount owner request = 1 := by simp [ownerCount, howner]
      have hcharged : ownerCharged owner request = charged request := by
        simp [ownerCharged, howner]
      rw [hone, ← Nat.add_assoc] at hcnt ⊢
      rw [hcharged, ← add_assoc] at hrsrc ⊢
      have hcnt' : count + 1 ≤ wordMax := (Nat.le_add_right _ _).trans hcnt
      have hrsrc' : resources + charged request ≤ .wordMax :=
        (le_add_of_nonneg_right (RequestResources.zero_le _)).trans hrsrc
      rw [if_pos howner, saturatingAdd_eq hcnt', RequestResources.saturatingAdd_eq hrsrc']
      exact ih _ _ hcnt hrsrc
    · have hnone : ownerCount owner request = 0 := by simp [ownerCount, howner]
      have hcharged : ownerCharged owner request = 0 := by simp [ownerCharged, howner]
      rw [hnone, Nat.zero_add] at hcnt ⊢
      rw [hcharged, zero_add] at hrsrc ⊢
      rw [if_neg howner]
      exact ih _ _ hcnt hrsrc

theorem usage_book {M : Type} [AddCommMonoid M] {f : KernelRequest O P → M}
    (hf : ∀ r, f r.erase = f r) :
    s.book.usage f = ((s.slots.filterMap (·.request)).map f).sum := by
  unfold Book.usage RequestRuntime.book
  induction s.slots with
  | nil => rfl
  | cons slot slots ih =>
    simp only [map_cons, sum_cons, ih]
    cases hreq : slot.request with
    | none => simp [RequestSlot.erase, hreq]
    | some r => simp [RequestSlot.erase, hreq, hf]

theorem ownerUsage_eq (hinv : Inv s.book) (hwithin : Within s.book) (owner : RequestOwner) :
    s.ownerUsage owner = (s.book.usage (ownerCount owner), s.book.usage (ownerCharged owner)) := by
  rw [usage_book fun _ => rfl,
    usage_book fun _ => rfl]
  have hcnt := hinv.usage_le (f := ownerCount owner) fun r => by unfold ownerCount; split <;> omega
  have hcharged : s.book.usage (ownerCharged owner) ≤ s.book.usage charged := by
    refine sum_le_sum fun slot _ => ?_
    cases slot.request with
    | none => exact le_rfl
    | some r =>
      change ownerCharged owner r ≤ charged r
      unfold ownerCharged
      split
      · exact le_rfl
      · exact RequestResources.zero_le _
  rw [usage_book fun _ => rfl] at hcnt
  rw [usage_book fun _ => rfl] at hcharged
  have hfold := foldl_ownerUsage owner (s.slots.filterMap (·.request)) 0 0 ?_ ?_
  · rw [Nat.zero_add, zero_add] at hfold
    exact hfold
  · unfold u32Max at hcnt
    unfold wordMax
    omega
  · rw [zero_add]
    exact hcharged.trans hwithin.counted

def ownedBy (owner : RequestOwner) (submission : RequestSubmission O P) : Nat :=
  if submission.owner = owner then 1 else 0

def ownedResources (owner : RequestOwner) (submission : RequestSubmission O P) :
    RequestResources := if submission.owner = owner then submission.resources else 0

def aimedAt (target : RequestTarget) (submission : RequestSubmission O P) : Nat :=
  if submission.target = target then 1 else 0

theorem total_filter {M : Type} [AddCommMonoid M] (f : RequestSubmission O P → M)
    (p : RequestSubmission O P → Prop) [DecidablePred p] :
    total f (submissions.filter p) = total (fun sub => if p sub then f sub else 0) submissions := by
  induction submissions with
  | nil => rfl
  | cons submission rest ih => by_cases hp : p submission <;> simp_all [total]

theorem length_filter (p : RequestSubmission O P → Prop) [DecidablePred p] :
    (submissions.filter p).length = total (fun sub => if p sub then 1 else 0) submissions := by
  rw [← total_filter, total, map_const', sum_replicate, nsmul_one, Nat.cast_id]

/-- The limits hold with the whole batch. -/
structure Admits (s : RequestRuntime O P) (submissions : List (RequestSubmission O P)) : Prop where
  system : s.diagnostics.resources + total RequestSubmission.resources submissions ≤ s.limits.system
  counted : s.diagnostics.resources + total RequestSubmission.resources submissions ≤ .wordMax
  ownerRequests : ∀ submission ∈ submissions,
    s.book.usage (ownerCount submission.owner) + total (ownedBy submission.owner) submissions ≤
      s.limits.perOwnerRequests
  ownerResources : ∀ submission ∈ submissions, s.book.usage (ownerCharged submission.owner) +
      total (ownedResources submission.owner) submissions ≤ s.limits.perOwner
  targetRequests : ∀ submission ∈ submissions,
    s.book.usage (targetCount submission.target) + total (aimedAt submission.target) submissions ≤
      s.limits.perTargetRequests

theorem le_of_saturatingAdd_le {a b limit : Nat} (hlimit : limit < u32Max)
    (h : ¬saturatingAdd a b > limit) : a + b ≤ limit := by
  unfold saturatingAdd wordMax at h
  unfold u32Max at hlimit
  omega

theorem counts_lt_of_isValid {lims : RequestLimits} (h : lims.isValid = true) :
    lims.perOwnerRequests < u32Max ∧ lims.perTargetRequests < u32Max := by
  simp only [RequestLimits.isValid, Bool.and_eq_true, decide_eq_true_eq] at h
  omega

theorem preflightOwner_eq_ok (hinv : Inv s.book) (hwithin : Within s.book)
    (hvalid : s.limits.isValid = true) {owner : RequestOwner}
    (h : s.preflightOwner submissions owner = .ok ()) :
    s.book.usage (ownerCount owner) + total (ownedBy owner) submissions ≤
        s.limits.perOwnerRequests ∧
      s.book.usage (ownerCharged owner) + total (ownedResources owner) submissions ≤
        s.limits.perOwner := by
  unfold preflightOwner at h
  simp only [bind, Except.bind, ownerUsage_eq hinv hwithin owner] at h
  split at h
  · cases h
  rename_i resources hadd
  split at h
  · cases h
  rename_i hcnt
  rw [length_filter] at hcnt
  have hrsrc := checkResources_eq_ok h
  rw [addOwnerResources_eq_ok hadd, total_filter] at hrsrc
  exact ⟨le_of_saturatingAdd_le (counts_lt_of_isValid hvalid).1 hcnt, hrsrc⟩

/-- Each owner was checked, at its first member. -/
theorem preflightOwners_eq_ok (h : preflightOwners submissions s [] submissions = .ok ()) :
    ∀ submission ∈ submissions, s.preflightOwner submissions submission.owner = .ok () := by
  refine forall_of_first owner (Q := fun owner => s.preflightOwner submissions owner = .ok ())
    (fun prev rest => preflightOwners submissions s prev rest = .ok ())
    (fun prev first rest h => ?_) h (by simp)
  unfold preflightOwners at h
  simp only [bind, Except.bind] at h
  split at h
  · rename_i hseen
    exact ⟨.inl (by simpa using hseen), h⟩
  · split at h
    · cases h
    · rename_i hchecked
      exact ⟨.inr hchecked, h⟩

theorem preflightTargets_eq_ok {newTargets : Nat}
    (h : preflightTargets submissions s [] submissions = .ok newTargets) :
    ∀ submission ∈ submissions, ¬saturatingAdd (s.targetRequestCount submission.target)
      (submissions.filter fun candidate => candidate.target = submission.target).length >
        s.limits.perTargetRequests := by
  refine forall_of_first target (Q := fun other => ¬saturatingAdd (s.targetRequestCount other)
      (submissions.filter fun candidate => candidate.target = other).length >
        s.limits.perTargetRequests)
    (fun prev rest => ∃ count, preflightTargets submissions s prev rest = .ok count)
    (fun prev first rest ⟨count, h⟩ => ?_) ⟨newTargets, h⟩ (by simp)
  unfold preflightTargets at h
  simp only [bind, Except.bind] at h
  split at h
  · rename_i hseen
    exact ⟨.inl (by simpa using hseen), count, h⟩
  split at h
  · cases h
  rename_i hlimit
  split at h
  · cases h
  · rename_i hrec
    exact ⟨.inr hlimit, _, hrec⟩

theorem targetRequestCount_eq (target : RequestTarget) :
    s.targetRequestCount target = s.book.usage (targetCount target) := by
  rw [usage_book fun _ => rfl]
  unfold targetRequestCount targetCount
  rw [sum_map_ite_one, countP_eq_length_filter]

theorem preflightBatch_eq_ok (hinv : Inv s.book) (hwithin : Within s.book)
    (hvalid : s.limits.isValid = true) (h : s.preflightBatch submissions = .ok ()) :
    s.Admits submissions := by
  unfold preflightBatch at h
  simp only [bind, Except.bind] at h
  split at h
  · cases h
  split at h
  · cases h
  split at h
  · cases h
  split at h
  · cases h
  rename_i batch hbatch
  split at h
  · cases h
  rename_i resources hrsrc
  split at h
  · cases h
  rename_i hsystem
  split at h
  · cases h
  rename_i howners
  split at h
  · cases h
  rename_i newTargets htgts
  obtain ⟨rfl, -⟩ := batchResources_eq_ok (RequestResources.zero_le _) hbatch
  obtain ⟨rfl, hcounted⟩ := RequestResources.checkedAdd_eq_some hrsrc
  rw [zero_add] at hcounted hsystem
  have howner' := fun submission hmem =>
    preflightOwner_eq_ok hinv hwithin hvalid (preflightOwners_eq_ok howners submission hmem)
  refine ⟨checkResources_eq_ok hsystem, hcounted, fun submission hmem =>
    (howner' submission hmem).1,
    fun submission hmem => (howner' submission hmem).2, fun submission hmem => ?_⟩
  have hcnt := preflightTargets_eq_ok htgts submission hmem
  rw [targetRequestCount_eq, length_filter] at hcnt
  exact le_of_saturatingAdd_le (counts_lt_of_isValid hvalid).2 hcnt

/-! ## The commit -/

theorem slots_findIdx? {i : Nat} (h : s.slots.findIdx? isVacant = some i) :
    ∃ g, s.slots[i]? = some ⟨g, false, none⟩ := by
  obtain ⟨⟨g, retired, request⟩, hslot, hvac⟩ := exists_of_findIdx? h
  simp only [isVacant, Bool.and_eq_true, isNone_iff_eq_none, Bool.not_eq_true'] at hvac
  obtain ⟨rfl, rfl⟩ := hvac
  exact ⟨g, hslot⟩

/-- The queue that is found has the name, or no name when no other has it. -/
theorem targetIndexOrVacant_eq_some {target : RequestTarget} {j : Nat}
    (h : s.targetIndexOrVacant target = some j) :
    ∃ q, s.targets[j]? = some q ∧ (q.target = some target ∨
      q.target = none ∧ ∀ other ∈ s.targets, other.target ≠ some target) := by
  unfold targetIndexOrVacant at h
  cases hfound : s.targetIndex target with
  | some k =>
    rw [hfound] at h
    obtain rfl : k = j := some.inj h
    obtain ⟨q, hq, hname⟩ := targetIndex_eq_some hfound
    exact ⟨q, hq, .inl hname⟩
  | none =>
    rw [hfound] at h
    obtain ⟨q, hq, hvac⟩ := exists_of_findIdx? h
    refine ⟨q, hq, .inr ⟨?_, fun other hother heq => ?_⟩⟩
    · simpa using hvac
    · have hnot := findIdx?_eq_none_iff.mp hfound other hother
      simp [heq] at hnot

theorem book_armDeadline (id : RequestId) (deadlineNs : Option Nat) :
    (s.armDeadline id deadlineNs).book = s.book := by
  unfold armDeadline
  split
  · exact deadlineHeap_unaffected.push _ s
  · rfl

theorem book_enter {i g j : Nat} {q : TargetQueue} (id : RequestId) (now : Nat)
    (hslot : s.slots[i]? = some ⟨g, false, none⟩) (hq : s.targets[j]? = some q)
    (hname : q.target = some submission.target ∨ q.target = none) :
    (s.enter i j id submission now).book = { s.book.put i g (.pending id submission now) with
        targets := s.targets.set j { q with
          target := some submission.target
          queued := q.queued ++ [id] } } := by
  have hnamed : (if q.target.isNone then { q with target := some submission.target }
      else q) = { q with target := some submission.target } := by
    rcases hname with hname | hname
    · cases q
      simp_all
    · simp [hname]
  have hset : (s.targets.set j { q with target := some submission.target })[j]? =
      some { q with target := some submission.target } :=
    (getElem?_set_iff hq _ _ _).mpr (.inl ⟨rfl, rfl⟩)
  unfold enter modifyTarget RequestRuntime.book Book.put
  simp only [modify_eq_set hq, modify_eq_set hslot, hnamed, modify_eq_set hset, set_set, map_set]
  rfl

theorem submitOne_visible (hinv : Inv s.book) {now : Nat} {id : RequestId}
    (hfits : s.diagnostics.resources + submission.resources ≤ .wordMax)
    (h : s.submitOne submission now = some (id, s')) :
    Visible s.book (.submitted id submission) s'.book := by
  simp only [submitOne, Option.bind_eq_bind, Option.bind_eq_some_iff] at h
  obtain ⟨i, hi, slot, hslot, j, hj, rfl, rfl⟩ := h
  obtain ⟨g, hg⟩ := slots_findIdx? hi
  rw [hslot] at hg
  cases hg
  obtain ⟨q, hq, hname⟩ := targetIndexOrVacant_eq_some hj
  have hsubmit := Visible.submit (b := s.book) (i := i) (g := g) submission now
    (by simp [RequestRuntime.book, hslot, RequestSlot.erase]) hq hname
  have henter := book_enter (.fromParts i g) now hslot hq (hname.imp_right And.left)
  refine (congrArg (Visible s.book _) ?_).mpr hsubmit
  have hbook := book_armDeadline (s := s.enter i j (.fromParts i g) submission now)
    (.fromParts i g) submission.deadlineNs
  rw [henter] at hbook
  generalize armDeadline _ _ (s.enter i j (.fromParts i g) submission now) = s1 at hbook ⊢
  have hdiagnostics : s1.diagnostics = s.diagnostics := congrArg Book.diagnostics hbook
  have hlive : s.diagnostics.liveRequests < u32Max := hinv.live_lt
  have hqueued : s.diagnostics.queuedRequests < u32Max := hinv.queued_lt
  calc (s1.chargeSubmission submission.resources).book
      _ = { s1.book with diagnostics := { s1.diagnostics with
            liveRequests := saturatingAdd s1.diagnostics.liveRequests 1
            queuedRequests := saturatingAdd s1.diagnostics.queuedRequests 1
            resources := s1.diagnostics.resources.saturatingAdd submission.resources } } := rfl
      _ = _ := by
        rw [hbook, hdiagnostics, saturatingAdd_one hlive, saturatingAdd_one hqueued,
          RequestResources.saturatingAdd_eq hfits]
        rfl

theorem visible_submitted {b b' : Book O P} {id : RequestId}
    (h : Visible b (.submitted id submission) b') :
    b'.limits = b.limits ∧
      b'.diagnostics.resources = b.diagnostics.resources + submission.resources ∧
      ∃ now, ∀ {M : Type} [AddCommMonoid M] (f : KernelRequest O P → M),
        b'.usage f = b.usage f + f (.pending id submission now) := by
  cases h with
  | submit submission now hslot hq hname =>
    exact ⟨rfl, rfl, now, fun f => usage_fill f hslot _⟩
  | observe he => exact he.elim

/-- What the commit of a batch adds. -/
structure Adds (b b' : Book O P) (submissions : List (RequestSubmission O P)) : Prop where
  limits : b'.limits = b.limits
  usage : ∀ {M : Type} [AddCommMonoid M] (f : KernelRequest O P → M)
    (f' : RequestSubmission O P → M),
    (∀ id submission nowNs, f (.pending id submission nowNs) = f' submission) →
    b'.usage f = b.usage f + total f' submissions

theorem commitBatch_star (now : Nat) (submissions : List (RequestSubmission O P))
    (s : RequestRuntime O P) (hinv : Inv s.book)
    (hfits : s.diagnostics.resources + total RequestSubmission.resources submissions ≤ .wordMax)
    {ids : List RequestId} (h : commitBatch now submissions s = some (ids, s')) :
    Star Book.Step s.book (submitted submissions ids) s'.book ∧
      Adds s.book s'.book submissions := by
  induction submissions generalizing s ids with
  | nil =>
    obtain ⟨rfl, rfl⟩ := Prod.mk.inj (some.inj h)
    exact ⟨.refl _, rfl, fun f f' hf => (add_zero _).symm⟩
  | cons submission rest ih =>
    simp only [commitBatch, Option.bind_eq_bind, Option.bind_eq_some_iff, Prod.exists] at h
    obtain ⟨id, s1, hone, ids', s2, hrest, rfl, rfl⟩ := h
    have htotal : total resources (submission :: rest) =
        submission.resources + total resources rest := rfl
    rw [htotal, ← add_assoc] at hfits
    have hvis := submitOne_visible hinv
      ((le_add_of_nonneg_right (RequestResources.zero_le _)).trans hfits) hone
    obtain ⟨hlimits, hrsrc, now', husage⟩ := visible_submitted hvis
    have hstep : Book.Step s.book [.submitted id submission] s1.book := .intro hvis .refl
    obtain ⟨hstar, hadds⟩ := ih s1 (hinv.visible hvis)
      (by rw [show s1.diagnostics.resources = _ from hrsrc]; exact hfits) hrest
    refine ⟨(Star.single hstep).trans hstar, hadds.limits.trans hlimits, fun f f' hf => ?_⟩
    rw [hadds.usage f f' hf, husage f, hf, add_assoc]
    rfl

theorem total_eq_zero {M : Type} [AddCommMonoid M] {f : RequestSubmission O P → M}
    (h : ∀ submission ∈ submissions, f submission = 0) : total f submissions = 0 := by
  refine sum_eq_zero fun x hx => ?_
  obtain ⟨submission, hmem, rfl⟩ := mem_map.mp hx
  exact h submission hmem

/-- The limits hold after a batch that was admitted. -/
theorem Admits.within {b' : Book O P} (h : s.Admits submissions) (hinv : Inv s.book)
    (hwithin : Within s.book) (hadds : Adds s.book b' submissions) : Within b' := by
  have hlimits : b'.limits = s.limits := hadds.limits
  have hcharged := hadds.usage charged resources fun _ _ _ => rfl
  have hrsrc : s.book.usage charged = s.diagnostics.resources := hinv.accounts.resources.symm
  rw [hrsrc] at hcharged
  refine ⟨?_, ?_, fun owner => ?_, fun owner => ?_, fun target => ?_⟩
  · rw [hcharged, hlimits]
    exact h.system
  · rw [hcharged]
    exact h.counted
  · rw [hadds.usage (ownerCount owner) (ownedBy owner) fun _ _ _ => rfl, hlimits]
    by_cases hsome : ∃ submission ∈ submissions, submission.owner = owner
    · obtain ⟨submission, hmem, rfl⟩ := hsome
      exact h.ownerRequests submission hmem
    · rw [total_eq_zero (f := ownedBy owner) fun submission hmem =>
        if_neg fun heq => hsome ⟨submission, hmem, heq⟩]
      exact hwithin.ownerRequests owner
  · rw [hadds.usage (ownerCharged owner) (ownedResources owner) fun _ _ _ => rfl, hlimits]
    by_cases hsome : ∃ submission ∈ submissions, submission.owner = owner
    · obtain ⟨submission, hmem, rfl⟩ := hsome
      exact h.ownerResources submission hmem
    · rw [total_eq_zero (f := ownedResources owner) fun submission hmem =>
        if_neg fun heq => hsome ⟨submission, hmem, heq⟩]
      exact hwithin.ownerResources owner
  · rw [hadds.usage (targetCount target) (aimedAt target) fun _ _ _ => rfl, hlimits]
    by_cases hsome : ∃ submission ∈ submissions, submission.target = target
    · obtain ⟨submission, hmem, rfl⟩ := hsome
      exact h.targetRequests submission hmem
    · rw [total_eq_zero (f := aimedAt target) fun submission hmem =>
        if_neg fun heq => hsome ⟨submission, hmem, heq⟩]
      exact hwithin.targetRequests target

theorem submitBatch_star (hinv : Inv s.book) (hwithin : Within s.book)
    (hvalid : s.limits.isValid = true) (outLen now : Nat) :
    Star Book.Step s.book (onOk (s.submitBatch submissions outLen now).1 (submitted submissions))
        (s.submitBatch submissions outLen now).2.book ∧
      Within (s.submitBatch submissions outLen now).2.book := by
  fun_cases submitBatch submissions outLen now s with
  | case6 _ _ _ _ hpreflight ids s' hcommit =>
    have hadmits := preflightBatch_eq_ok hinv hwithin hvalid hpreflight
    obtain ⟨hstar, hadds⟩ := commitBatch_star now submissions s hinv hadmits.counted hcommit
    exact ⟨hstar, hadmits.within hinv hwithin hadds⟩
  | _ => exact ⟨.refl _, hwithin⟩

theorem submitBatch_eq_ok (hinv : Inv s.book) (hwithin : Within s.book)
    (hvalid : s.limits.isValid = true) {outLen now : Nat} {ids : List RequestId}
    (h : (s.submitBatch submissions outLen now).1 = .ok ids) :
    commitBatch now submissions s = some (ids, (s.submitBatch submissions outLen now).2) ∧
      s.diagnostics.resources + total RequestSubmission.resources submissions ≤ .wordMax := by
  revert h
  fun_cases submitBatch submissions outLen now s with
  | case6 _ _ _ _ hpreflight ids' s' hcommit =>
    intro h
    obtain rfl : ids' = ids := Except.ok.inj h
    exact ⟨hcommit, (preflightBatch_eq_ok hinv hwithin hvalid hpreflight).counted⟩
  | _ => exact nofun

theorem submitBatch_eq_error {outLen now : Nat} {error : RequestError}
    (h : (s.submitBatch submissions outLen now).1 = .error error) :
    (s.submitBatch submissions outLen now).2 = s := by
  revert h
  fun_cases submitBatch submissions outLen now s with
  | case6 _ _ _ _ _ _ _ _ => exact nofun
  | _ => exact fun _ => rfl

end RequestRuntime

end Ginkgo.Kernel.Request
