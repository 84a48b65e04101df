import Ginkgo.Kernel.RequestBroker.Coupling

/-!
# The calls of the broker

Every call keeps the two tables coupled: the calls that submit, the two that take what the
runtime has queued, and the others, which leave every request where it is.
-/

namespace Ginkgo.Kernel.Request.RequestBroker

open Ginkgo.Ipc Ginkgo.Lib Ginkgo.Sysapi List RequestRuntime

structure Sane (limits : RequestLimits) (history : List Event) (s : RequestBroker) : Prop where
  good : RequestRuntime.Good limits s.runtime
  coupled : Coupled history s

section Quiet

variable {limits : RequestLimits} {history : List Event} {s s' : RequestBroker}
  {E : BrokerError → RequestBroker → Prop}

theorem Sane.quiet (h : Sane limits history s) (op : Op RequestOperation BrokerPayload)
    (hop : op.IsQuiet) (hruntime : s'.runtime = (RequestRuntime.exec op s.runtime).2)
    (hstays : Stays s s') : Sane limits history s' := by
  have hgood := exec_good h.good op
  have hkeeps := exec_keeps h.good h.coupled.tidy hop
  rw [← hruntime] at hgood hkeeps
  exact ⟨hgood, h.coupled.quiet hgood.inv hkeeps hstays⟩

theorem Sane.stays (h : Sane limits history s) (hruntime : s'.runtime = s.runtime)
    (hstays : Stays s s') : Sane limits history s' := by
  have hgood : RequestRuntime.Good limits s'.runtime := hruntime ▸ h.good
  refine ⟨hgood, h.coupled.quiet hgood.inv (.of_slots_eq ?_) hstays⟩
  rw [hruntime]

theorem runtime_modifyEntry (id : RequestId) (f : BrokerEntry → BrokerEntry) (s : RequestBroker) :
    (s.modifyEntry id f).runtime = s.runtime := by
  unfold modifyEntry
  split <;> rfl

theorem runtime_synchronizeInfo (id : RequestId) (s : RequestBroker) :
    (s.synchronizeInfo id).runtime = s.runtime := by
  unfold synchronizeInfo
  split
  · rfl
  · exact runtime_modifyEntry id _ s

theorem runtime_synchronizeAllInfo (s : RequestBroker) :
    s.synchronizeAllInfo.runtime = s.runtime := by
  unfold synchronizeAllInfo
  generalize range s.slots.length = indices
  induction indices generalizing s with
  | nil => rfl
  | cons index rest ih =>
    rw [foldl_cons, ih]
    split
    · rfl
    · exact runtime_synchronizeInfo _ s

theorem wp_onRuntime {α : Type} {call : RequestRuntime RequestOperation BrokerPayload →
      Except RequestError α × RequestRuntime RequestOperation BrokerPayload}
    {Q : α → RequestBroker → Prop}
    (hok : ∀ value, (call s.runtime).1 = .ok value →
      Q value { s with runtime := (call s.runtime).2 })
    (herr : ∀ error, (call s.runtime).1 = .error error →
      E (.runtime error) { s with runtime := (call s.runtime).2 }) : wp (onRuntime call) Q E s := by
  unfold wp onRuntime
  rcases hcall : call s.runtime with ⟨result, runtime⟩
  rw [hcall] at hok herr
  cases result with
  | ok value => exact hok value rfl
  | error error => exact herr error rfl

theorem wp_liftExcept {α : Type} {x : Except BrokerError α} {Q : α → RequestBroker → Prop}
    (hok : ∀ value, x = .ok value → Q value s)
    (herr : ∀ error, E error s) : wp (liftExcept x) Q E s := by
  cases x with
  | ok value => exact hok value rfl
  | error error => exact herr error

end Quiet

/-! ## Actions -/

section Actions

variable {limits : RequestLimits} {history : List Event} {s : RequestBroker}

theorem requestStateIsTerminal_some (state : RequestState) :
    requestStateIsTerminal (some state) = isTerminal state := by
  cases state <;> rfl

theorem synchronizedInfo_spec (snapshot : KernelRequest RequestOperation BrokerPayload)
    (completionResult : Option CompletionResult) (info : RequestInfo) :
    (synchronizedInfo snapshot completionResult info).requestState = some snapshot.state ∧
      (synchronizedInfo snapshot completionResult info).result = snapshot.status.raw ∧
      (synchronizedInfo snapshot completionResult info).completedNs =
        snapshot.completedAtNs.getD 0 := by
  unfold synchronizedInfo RequestInfo.requestState
  cases completionResult <;> cases isTerminal snapshot.state <;> simp

section Publish

variable {i g : Nat} {entry : BrokerEntry} {x : KernelRequest RequestOperation BrokerPayload}

theorem attemptPublication_spec (hplaced : Placed s i g entry)
    (hterm : requestStateIsTerminal entry.info.requestState = true)
    (hopen : requestStateIsTerminal (s.controls.cell entry.control).info.requestState = false) :
    (s.attemptPublication entry).2.runtime = s.runtime ∧ (s.attemptPublication entry).2.slots =
        s.slots.set i ⟨g, false, some { entry with terminalPublicationAttempted := true }⟩ ∧
      (s.attemptPublication entry).2.controls =
        s.controls.modify entry.control ({ · with info := entry.info }) := by
  unfold attemptPublication
  rw [hplaced.modifyEntry_eq]
  simp [controlPublishTerminal, hterm, hopen]

theorem wp_publishTerminal {id : RequestId} {state : RequestState} {status : Status}
    {completedAtNs : Nat} (hplaced : Placed s i g entry) (hid : entry.id = id)
    (hx : s.runtime.request id = some x) (hst : x.state = state) (hstatus : x.status = status)
    (hcomp : x.completedAtNs = some completedAtNs) (hterm : isTerminal state = true)
    (hattempted : entry.terminalPublicationAttempted = false)
    (hopen : requestStateIsTerminal (s.controls.cell entry.control).info.requestState = false) :
    wp (publishTerminal id state status completedAtNs) (fun _ s' =>
      s'.runtime = s.runtime ∧
      s'.slots = s.slots.set i ⟨g, false, some { entry with
        info := synchronizedInfo x entry.completionResult entry.info
        terminalPublicationAttempted := true }⟩ ∧
      s'.controls = s.controls.modify entry.control ({ · with
        info := synchronizedInfo x entry.completionResult entry.info })) (fun _ _ => False) s := by
  subst hid hst hstatus
  let entry' := { entry with info := synchronizedInfo x entry.completionResult entry.info }
  have hsynchronized : s.synchronizeInfo entry.id =
      { s with slots := s.slots.set i ⟨g, false, some entry'⟩ } := by
    unfold synchronizeInfo
    rw [hx]
    exact hplaced.modifyEntry_eq _
  have hplaced' : Placed (s.synchronizeInfo entry.id) i g entry' :=
    hplaced.set (by rw [hsynchronized]) rfl
  have hfound : (s.synchronizeInfo entry.id).entry entry.id = some entry' := hplaced'.entry_eq
  have hattempted' : entry'.terminalPublicationAttempted = false := hattempted
  have hterm' : requestStateIsTerminal entry'.info.requestState = true := by
    rw [(synchronizedInfo_spec _ _ _).1, requestStateIsTerminal_some]
    exact hterm
  have hopen' : requestStateIsTerminal
      ((s.synchronizeInfo entry.id).controls.cell entry'.control).info.requestState = false := by
    rw [hsynchronized]
    exact hopen
  obtain ⟨hruntime, hslots, hctrls⟩ := attemptPublication_spec hplaced' hterm' hopen'
  refine wp_get ?_
  simp only [hx, hcomp, hterm, ne_eq]
  refine wp_set_bind ?_
  simp only [hfound, hattempted']
  refine wp_set_bind (wp_pure ⟨?_, ?_, ?_⟩)
  · rw [hruntime, hsynchronized]
  · rw [hslots, hsynchronized]
    simp only [set_set, entry']
  · rw [hctrls, hsynchronized]

end Publish

/-- The request of the action that is taken, before and after. -/
structure Taken (s : RequestBroker) (action : RequestAction) (i g : Nat) (entry : BrokerEntry)
    (r x : KernelRequest RequestOperation BrokerPayload) : Prop where
  holds : s.runtime.book.Holds i g r
  entry : s.Holds i g entry
  describes : action.Describes r
  queued : action.kind ∈ kinds r
  next : s.runtime.nextAction = (some action, s.runtime.nextAction.2)
  keeps : (s.runtime.book.put i g (RequestRuntime.dispatchAction action r)).Keeps
    s.runtime.nextAction.2.book
  request : s.runtime.nextAction.2.request r.id = some x
  kin : Kin (RequestRuntime.dispatchAction action r) x.erase

theorem Sane.taken (h : Sane limits history s)
    {rest : List RequestAction} (hacts : s.runtime.actions = act :: rest) :
    ∃ i g entry r x, Taken s act i g entry r x := by
  obtain ⟨hsome, i, g, r, hr, hdesc, hkind, hkeeps⟩ :=
    nextAction_keeps h.good.inv h.coupled.tidy hacts
  obtain ⟨entry, hent, -⟩ := h.coupled.entry_of_holds hr
  have hdisp : (s.runtime.book.put i g (dispatchAction act r)).Holds i g (dispatchAction act r) :=
    (getElem?_set_iff hr _ _ _).mpr (.inl ⟨rfl, rfl⟩)
  obtain ⟨r', hr', hkin⟩ := hkeeps.later hdisp
  obtain ⟨x, hx, rfl⟩ := holds_of_book hr'
  have hgood : RequestRuntime.Good limits s.runtime.nextAction.2 :=
    exec_good h.good .nextAction
  have hreq := hx.request (slots_of_book hgood.inv.slots)
  have hid : x.id = r.id := hkin.id.trans (dispatchAction_id act r)
  rw [hid] at hreq
  exact ⟨i, g, entry, r, x, hr, hent, hdesc, hkind, Prod.ext hsome rfl, hkeeps, hreq, hkin⟩

section Perform

variable {i g : Nat} {entry : BrokerEntry} {r x : KernelRequest RequestOperation BrokerPayload}

variable (h : Sane limits history s)
include h

theorem Sane.unannounced {s' : RequestBroker}
    {entry' : BrokerEntry} (htaken : Taken s act i g entry r x)
    (hruntime : s'.runtime = s.runtime.nextAction.2)
    (hslots : s'.slots = s.slots.set i ⟨g, false, some entry'⟩)
    (hctrls : s'.controls = s.controls) (hctrl : entry'.control = entry.control)
    (hbufs : entry'.buffers = entry.buffers)
    (hpaired : Paired (history ++ [.popped act]) entry' (RequestRuntime.dispatchAction act r))
    (hspares : ∀ id, (Event.popped act).Spares id) :
    Sane limits (history ++ [.popped act]) s' := by
  have hgood : RequestRuntime.Good limits s.runtime.nextAction.2 :=
    exec_good h.good .nextAction
  have hkeeps := htaken.keeps
  rw [← hruntime] at hgood hkeeps
  have hpaired0 := h.coupled.paired_of_holds htaken.entry htaken.holds
  obtain ⟨buffers, -, hfiled⟩ := hpaired0.filed
  refine ⟨hgood, h.coupled.mark htaken.holds (fun id _ => hspares id) nofun hgood.inv htaken.entry
    (dispatchAction_id act r) hpaired hctrl hbufs hkeeps hslots (by rw [hctrls])
    (fun control => ?_) ?_⟩
  · rw [hctrls]
    exact ⟨rfl, fun _ => rfl⟩
  · rw [hctrls, publications_spared (hspares r.id)]
    exact (h.coupled.filed r.id entry.control buffers hfiled).reported

theorem wp_dispatchRelease {owner : RequestOwner} {resources : RequestResources}
    (htaken : Taken s (.releaseResources r.id owner resources) i g entry r x) :
    wp (dispatchRelease r.id owner resources) (fun _ s' =>
      Sane limits (history ++ [.popped (.releaseResources r.id owner resources)]) s')
      (fun _ _ => False) { s with runtime := s.runtime.nextAction.2 } := by
  have hpaired := h.coupled.paired_of_holds htaken.entry htaken.holds
  obtain ⟨-, howner, hrsrc⟩ := htaken.describes
  have hplaced : Placed { s with runtime := s.runtime.nextAction.2 } i g entry :=
    { h.coupled.placed htaken.entry with }
  have hfound := hplaced.entry_eq
  have hmodified := hplaced.modifyEntry_eq ({ · with releaseDispatched := true })
  rw [hpaired.id] at hfound hmodified
  have hchecks : ¬(entry.owner ≠ owner ∨ x.resources ≠ resources) := by
    rw [hpaired.owner, howner, hrsrc, show x.resources = r.resources from htaken.kin.resources]
    simp
  refine wp_get ?_
  simp only [htaken.request, hfound, hmodified, if_neg hchecks]
  refine wp_set (h.unannounced htaken rfl rfl rfl rfl rfl ?_ fun id => ⟨rfl, rfl⟩)
  have hspared := hpaired.spared
    (show (Event.popped (.releaseResources r.id owner resources)).Spares r.id from ⟨rfl, rfl⟩)
  exact { hspared with id := rfl, dispatched := rfl }

theorem wp_performPublish {completedAtNs : Nat}
    (htaken : Taken s (.publishTerminal r.id r.state r.status completedAtNs) i g entry r x) :
    wp (publishTerminal r.id r.state r.status completedAtNs) (fun _ s' =>
      Sane limits (history ++ [.popped (.publishTerminal r.id r.state r.status completedAtNs)]) s')
      (fun _ _ => False) { s with runtime := s.runtime.nextAction.2 } := by
  have hpaired := h.coupled.paired_of_holds htaken.entry htaken.holds
  have hsound := h.good.inv.sound r ⟨i, g, htaken.holds⟩
  obtain ⟨-, hterm, -, -, hcomp⟩ := htaken.describes
  obtain ⟨hst, hstatus, hkept⟩ := htaken.kin.ended hterm
  have hunpublished := hsound.unpublished (publish_mem_kinds.mp htaken.queued)
  have hpublications : publications r.id history = [] := by
    rw [hpaired.published, hunpublished]
    rfl
  obtain ⟨buffers, hbufs, hfiled⟩ := hpaired.filed
  have hreported := (h.coupled.filed r.id entry.control buffers hfiled).reported
  rw [hpublications] at hreported
  have hplaced : Placed { s with runtime := s.runtime.nextAction.2 } i g entry :=
    { h.coupled.placed htaken.entry with }
  have hst : x.state = r.state := hst
  have hstatus : x.status = r.status := hstatus
  have hkept : x.completedAtNs = some completedAtNs := hkept.trans hcomp
  have hpublish := wp_publishTerminal hplaced hpaired.id htaken.request hst hstatus hkept
    hterm (hpaired.attempted.trans hunpublished) hreported
  refine wp_mono hpublish (fun _ s' hs' => ?_) fun _ _ hfalse => hfalse
  obtain ⟨hruntime, hslots, hctrls⟩ := hs'
  have hruntime : s'.runtime = s.runtime.nextAction.2 := hruntime
  have hgood : RequestRuntime.Good limits s.runtime.nextAction.2 :=
    exec_good h.good .nextAction
  have hkeeps := htaken.keeps
  rw [← hruntime] at hgood hkeeps
  have hannounced : publications r.id
      (history ++ [.popped (.publishTerminal r.id r.state r.status completedAtNs)]) =
        [⟨r.state, r.status, completedAtNs⟩] := by
    rw [publications_concat, hpublications]
    simp [Event.publication?]
  have huntaken : takings r.id
      (history ++ [.popped (.publishTerminal r.id r.state r.status completedAtNs)]) = [] := by
    rw [takings_concat, hpaired.untaken]
    rfl
  let action : RequestAction := .publishTerminal r.id r.state r.status completedAtNs
  have hid : (dispatchAction action r).id = r.id := rfl
  have hpaired' : Paired (history ++ [.popped action]) { entry with
      info := synchronizedInfo x entry.completionResult entry.info
      terminalPublicationAttempted := true } (dispatchAction action r) := by
    refine ⟨hpaired.id, hpaired.owner, rfl, hpaired.dispatched, hpaired.held, fun _ => hterm,
      ⟨buffers, hbufs, mem_append_left _ hfiled⟩, hannounced.trans ?_, huntaken⟩
    simp [dispatchAction, action, hcomp]
  refine ⟨hgood, h.coupled.mark htaken.holds (fun id hne => ⟨if_neg (Ne.symm hne), rfl⟩)
    (by rintro _ _ _ ⟨⟩) hgood.inv htaken.entry hid hpaired' rfl rfl hkeeps hslots
    (by rw [hctrls]; rfl) (fun control => ?_) ?_⟩
  · rw [hctrls]
    by_cases heq : control = entry.control
    · subst heq
      simp
    · simp [Heap.cell_modify_of_ne _ _ heq]
  · rw [hannounced, hctrls]
    simp only [Heap.cell_modify_self]
    obtain ⟨hshown, hresult, htime⟩ := synchronizedInfo_spec x entry.completionResult entry.info
    rw [hst] at hshown
    rw [hstatus] at hresult
    rw [hkept] at htime
    exact ⟨hshown, hresult, htime⟩

theorem wp_performAction (htaken : Taken s act i g entry r x) :
    wp (performAction act) (fun _ s' => Sane limits (history ++ [.popped act]) s')
      (fun _ _ => False) { s with runtime := s.runtime.nextAction.2 } := by
  have hpaired := h.coupled.paired_of_holds htaken.entry htaken.holds
  have hid := htaken.describes.id_eq
  cases act with
  | cancelDevice id device why =>
    refine wp_pure (h.unannounced htaken rfl (set_getElem?_self htaken.entry).symm rfl rfl rfl ?_
      fun id => ⟨rfl, rfl⟩)
    have hspared := hpaired.spared
      (show (Event.popped (.cancelDevice id device why)).Spares r.id from ⟨rfl, rfl⟩)
    exact { hspared with }
  | releaseResources id owner resources =>
    obtain rfl : id = r.id := hid
    exact wp_dispatchRelease h htaken
  | publishTerminal id st status doneNs =>
    obtain rfl : id = r.id := hid
    obtain ⟨-, -, rfl, rfl, -⟩ := htaken.describes
    exact wp_seq (wp_performPublish h htaken) fun _ _ hs' => wp_pure hs'

end Perform

theorem wp_popAction (h : Sane limits history s) :
    wp popAction (fun act s' => act = s.runtime.nextAction.1 ∧
      Sane limits (history ++ act.toList.map .popped) s') (fun _ _ => False) s := by
  refine wp_get ?_
  cases hacts : s.runtime.actions with
  | nil =>
    have hnext : s.runtime.nextAction = (none, s.runtime) := by
      simp [nextAction, hacts]
    simp only [hnext]
    refine wp_set_bind (wp_pure ⟨rfl, ?_⟩)
    simpa using h
  | cons act rest =>
    obtain ⟨i, g, entry, r, x, htaken⟩ := h.taken hacts
    rw [htaken.next]
    refine wp_set_bind (wp_bind ?_)
    exact wp_mono (wp_performAction h htaken) (fun _ s' hs' => wp_pure ⟨rfl, hs'⟩)
      fun _ _ hfalse => hfalse

/-- The slot of generation `g` after its entry was retired. -/
def retiredSlot (g : Nat) : BrokerSlot :=
  if g + 1 ≤ u32Max then ⟨g + 1, false, none⟩ else ⟨g, true, none⟩

theorem mates_retiredSlot (g : Nat) (history : List Event) :
    Mates history (retiredSlot g) (.vacated g) := by
  unfold retiredSlot RequestSlot.vacated
  split <;> exact ⟨rfl, rfl, .none⟩

theorem retireEntryIfRuntimeDid_eq {i g : Nat} {entry : BrokerEntry} (hplaced : Placed s i g entry)
    (hnone : s.runtime.request entry.id = none) :
    s.retireEntryIfRuntimeDid entry.id = { s with slots := s.slots.set i (retiredSlot g) } := by
  unfold retireEntryIfRuntimeDid
  simp only [hnone, hplaced.entryIndex_eq, modify_eq_set hplaced.holds]
  unfold retiredSlot
  split <;> rfl

theorem wp_takeExternalResources (h : Sane limits history s) (id : RequestId) :
    wp (takeExternalResources id) (fun released s' =>
      Sane limits (history ++ [.taken id released.buffers]) s')
      (fun _ s' => Sane limits history s') s := by
  refine wp_get ?_
  rcases h.coupled.entry_cases id with hnone | ⟨i, g, entry, hent, rfl⟩
  · rw [hnone]
    exact wp_throw h
  have hplaced := h.coupled.placed hent
  rw [hplaced.entry_eq]
  obtain ⟨r, hr, hpaired⟩ := h.coupled.paired hent
  obtain ⟨buffers, hbufs, -⟩ := hpaired.filed
  refine wp_ite (fun _ => wp_throw h) fun hdisp => ?_
  simp only [hbufs]
  rw [Bool.not_eq_true', Bool.not_eq_false] at hdisp
  have hreleased : r.resourceReleaseDispatched = true := hpaired.dispatched ▸ hdisp
  have hsound := h.good.inv.sound r ⟨i, g, hr⟩
  obtain ⟨hok, hvacated⟩ :=
    acknowledgeResourceRelease_empties h.good.inv hr hreleased hpaired.held
  rw [← hpaired.id] at hok hvacated
  have hgood : RequestRuntime.Good limits (s.runtime.acknowledgeResourceRelease entry.id).2 :=
    exec_good h.good (.acknowledgeResourceRelease entry.id)
  refine wp_bind (wp_onRuntime (fun _ _ => ?_) fun error herr => ?_)
  swap
  · rw [hok] at herr
    cases herr
  refine wp_get ?_
  let s1 : RequestBroker := { s with runtime := (s.runtime.acknowledgeResourceRelease entry.id).2 }
  have hplaced1 : Placed s1 i g entry := { hplaced with }
  have hfound : s1.entry entry.id = some entry := hplaced1.entry_eq
  have hmodified := hplaced1.modifyEntry_eq ({ · with buffers := none })
  have hplaced2 : Placed (s1.modifyEntry entry.id ({ · with buffers := none })) i g
      { entry with buffers := none } := hplaced1.set (by rw [hmodified]) rfl
  have hnone : (s1.modifyEntry entry.id ({ · with buffers := none })).runtime.request entry.id =
      none := by
    rw [hmodified]
    cases hreq : s1.runtime.request entry.id with
    | none => rfl
    | some x =>
      obtain ⟨⟨j, g', hx⟩, hid⟩ := live_of_request hreq
      have hclear := (h.good.inv.slots.live_clear hr (vacated_request g) s.runtime.diagnostics
        x.erase).mp ⟨j, g', hvacated ▸ hx⟩
      exact absurd (hid.trans hpaired.id) hclear.2
  have hret := retireEntryIfRuntimeDid_eq hplaced2 hnone
  simp only [s1] at hfound hret
  simp only [hfound, Option.bind_some, hbufs]
  refine wp_set_bind (wp_pure ⟨?_, ?_⟩)
  · rw [hret, hmodified]
    exact hgood
  · rw [hret, hmodified, hpaired.id]
    refine h.coupled.empty hent hr hbufs (hsound.ordered hreleased) hgood.inv hvacated ?_
      (mates_retiredSlot g) rfl
    simp only [set_set, s1]

end Actions

/-! ## Submission -/

variable {limits : RequestLimits} {history : List Event} {s s' : RequestBroker}
  {request : PreparedBrokerRequest} {info : RequestInfo} {slotIndex : Nat}
  {members : List PreparedMember} {ids : List RequestId}

theorem submission_owner {sub : RequestSubmission RequestOperation BrokerPayload}
    (h : request.submission = .ok sub) : sub.owner = request.owner := by
  unfold PreparedBrokerRequest.submission at h
  cases hrsrc : request.resources with
  | error error =>
    rw [hrsrc] at h
    cases h
  | ok resources =>
    rw [hrsrc] at h
    cases h
    rfl

theorem initialInfo_open {now : Nat} (h : initialInfo request now = .ok info) :
    requestStateIsTerminal info.requestState = false := by
  unfold initialInfo at h
  cases hddl : checkedPublicDeadline request.deadlineNs with
  | error error =>
    rw [hddl] at h
    cases h
  | ok deadline =>
    rw [hddl] at h
    cases h
    rfl

/-- The broker before the runtime is called: more controls, and perhaps less memory. -/
structure Prepares (s s' : RequestBroker) : Prop where
  runtime : s'.runtime = s.runtime
  slots : s'.slots = s.slots
  stays : Stays s s'

namespace Prepares

theorem refl (s : RequestBroker) : Prepares s s := ⟨rfl, rfl, .refl s⟩

variable (h : Prepares s s') {s'' : RequestBroker}
include h

theorem trans (h' : Prepares s' s'') : Prepares s s'' :=
  ⟨h'.runtime.trans h.runtime, h'.slots.trans h.slots, h.stays.trans h'.stays⟩

theorem sane (hsane : Sane limits history s) : Sane limits history s' :=
  hsane.stays h.runtime h.stays

theorem expectedId_eq (slotIndex : Nat) : s'.expectedId slotIndex = s.expectedId slotIndex := by
  unfold expectedId
  rw [h.slots]

theorem vacantSlots_eq (count : Nat) : s'.vacantSlots count = s.vacantSlots count := by
  unfold vacantSlots
  rw [h.slots]

end Prepares

theorem wp_tryReserve (count : Nat) : Ends (tryReserve count) (Prepares s) s := by
  have hmemory : ∀ memory, Prepares s { s with memory := memory } := fun memory =>
    ⟨rfl, rfl, .of_eq rfl rfl⟩
  exact wp_zoom (wp_allocCapacity hmemory hmemory)

theorem wp_reserve {α : Type} {s₁ : RequestBroker} {count : Nat} {next : Unit → BrokerM α}
    {Q : α → RequestBroker → Prop} (h : Prepares s s₁)
    (herr : ∀ error s', Prepares s s' → E error s')
    (hnext : ∀ s', Prepares s s' → wp (next ()) Q E s') : wp (tryReserve count >>= next) Q E s₁ :=
  wp_bind (wp_mono (wp_tryReserve count) (fun _ s' hs' => hnext s' (h.trans hs'))
    fun error s' hs' => herr error s' (h.trans hs'))

/-- The control was allocated for the request of this slot. -/
structure Reserved (s s' : RequestBroker) (slotIndex : Nat)
    (control : RequestControlId) : Prop where
  fresh : s.controls.next ≤ control
  allocated : control < s'.controls.next
  named : (s'.controls.cell control).requestId = (s.expectedId slotIndex).raw
  unpublished : requestStateIsTerminal (s'.controls.cell control).info.requestState = false

theorem Reserved.later {control : RequestControlId}
    (h : Reserved s s' slotIndex control) (h' : Prepares s' s'') :
    Reserved s s'' slotIndex control := by
  obtain ⟨hid, hshown⟩ := h'.stays.cells control h.allocated
  refine ⟨h.fresh, h.allocated.trans_le h'.stays.next, hid.trans h.named, ?_⟩
  rw [hshown]
  exact h.unpublished

theorem wp_newControl (hinfo : requestStateIsTerminal info.requestState = false) (slotIndex : Nat) :
    wp (newControl (s.expectedId slotIndex).raw info)
      (fun control s' => Prepares s s' ∧ Reserved s s' slotIndex control)
      (fun _ s' => Prepares s s') s := by
  refine wp_ite (fun _ => wp_throw (.refl s)) fun _ => ?_
  refine wp_bind (wp_zoom (wp_alloc (fun memory => ?_) fun memory => ⟨rfl, rfl, .of_eq rfl rfl⟩))
  refine wp_get (wp_set_bind (wp_pure ⟨⟨rfl, rfl, ?_⟩, ?_⟩))
  · refine ⟨(Stays.refl s).slots, Nat.le_succ _, fun control hlt => ?_⟩
    simp only [Heap.cell_alloc_of_ne _ _ (Nat.ne_of_lt hlt)]
    exact ⟨trivial, trivial⟩
  · refine ⟨le_rfl, Nat.lt_succ_self _, ?_, ?_⟩
    · simp only [Heap.cell_alloc_self]
    · simp only [Heap.cell_alloc_self]
      exact hinfo

/-- What the commit of the runtime and the installation need of the members. -/
structure Ready (s s' : RequestBroker) (members : List PreparedMember) : Prop where
  distinct : (members.map (·.control)).Nodup
  reserved : ∀ member ∈ members, Reserved s s' member.slotIndex member.control
  owner : ∀ member ∈ members, member.submission.owner = member.request.owner

theorem Ready.later (h : Ready s s' members) (h' : Prepares s' s'') : Ready s s'' members :=
  ⟨h.distinct, fun mem hmem => (h.reserved mem hmem).later h', h.owner⟩

theorem wp_prepareBatch (now : Nat) (pairs : List (PreparedBrokerRequest × Nat))
    (s : RequestBroker) :
    wp (prepareBatch now pairs) (fun members s' => Prepares s s' ∧ Ready s s' members ∧
      members.map (fun mem => (mem.request, mem.slotIndex)) = pairs)
      (fun _ s' => Prepares s s') s := by
  induction pairs generalizing s with
  | nil =>
    refine wp_pure ⟨.refl s, ⟨nodup_nil, ?_, ?_⟩, rfl⟩ <;> exact forall_mem_nil _
  | cons pair rest ih =>
    obtain ⟨request, slotIndex⟩ := pair
    refine wp_bind (wp_liftExcept (fun sub hsubm => ?_) fun _ => .refl s)
    refine wp_bind (wp_liftExcept (fun info hinfo => ?_) fun _ => .refl s)
    refine wp_get (wp_bind ?_)
    refine wp_mono (wp_newControl (initialInfo_open hinfo) slotIndex) (fun control s1 hs1 => ?_)
      fun _ _ hs1 => hs1
    obtain ⟨hpreps1, hrsv1⟩ := hs1
    refine wp_bind (wp_mono (ih s1) (fun members s2 hs2 => ?_) fun _ _ hs2 =>
      hpreps1.trans hs2)
    obtain ⟨hpreps2, hready, hpairs⟩ := hs2
    refine wp_pure ⟨hpreps1.trans hpreps2, ⟨?_, fun mem hmem => ?_, fun mem hmem => ?_⟩,
      by rw [map_cons, hpairs]⟩
    · refine nodup_cons.mpr ⟨fun hmem => ?_, hready.distinct⟩
      obtain ⟨mem, hmember, heq⟩ := mem_map.mp hmem
      have hfresh := (hready.reserved mem hmember).fresh
      rw [heq] at hfresh
      exact absurd hrsv1.allocated (Nat.not_lt.mpr hfresh)
    · rcases mem_cons.mp hmem with rfl | hmem
      · exact hrsv1.later hpreps2
      · have hrsv := hready.reserved mem hmem
        exact ⟨hpreps1.stays.next.trans hrsv.fresh, hrsv.allocated,
          hrsv.named.trans (by rw [hpreps1.expectedId_eq]), hrsv.unpublished⟩
    · rcases mem_cons.mp hmem with rfl | hmem
      · exact submission_owner hsubm
      · exact hready.owner mem hmem

theorem expectedId_install {id : RequestId} {control : RequestControlId} (j : Nat) :
    (s.install slotIndex id control info request).expectedId j = s.expectedId j := by
  unfold expectedId install
  rw [getElem?_modify]
  split <;> cases s.slots[j]? <;> rfl

def submittedEvents (requests : List PreparedBrokerRequest) (results : List BrokerSubmission) :
    List Event :=
  (requests.zip results).map fun (request, result) =>
    .submitted result.id result.control request.buffers

/-- What the broker answers for the members it installed. -/
def submissions (members : List (PreparedMember × RequestId)) : List BrokerSubmission :=
  members.map fun (member, id) => ⟨id, member.control, member.request.completionMode⟩

theorem map_id_submissions (h : ids.length = members.length) :
    (submissions (members.zip ids)).map (·.id) = ids := by
  unfold submissions
  rw [map_map]
  exact map_snd_zip (Nat.le_of_eq h)

theorem runtime_installBatch (members : List (PreparedMember × RequestId)) (s : RequestBroker) :
    (installBatch members s).runtime = s.runtime := by
  induction members generalizing s with
  | nil => rfl
  | cons mem rest ih => exact ih _

theorem vacantSlots_one (s : RequestBroker) : s.vacantSlots 1 = s.nextVacantSlot.toList := by
  unfold vacantSlots nextVacantSlot
  rw [take_one, head?_indices]

/-- The first of the slots that can be filled comes next; the others stay. -/
theorem vacantSlots_install {count : Nat} {later : List Nat} (id : RequestId)
    (control : RequestControlId) (info : RequestInfo) (request : PreparedBrokerRequest)
    (h : slotIndex :: later = s.vacantSlots (count + 1)) :
    s.nextVacantSlot = some slotIndex ∧
      later = (s.install slotIndex id control info request).vacantSlots count := by
  unfold vacantSlots at h
  have hhead := head?_indices BrokerSlot.isVacant s.slots
  cases hindices : indices BrokerSlot.isVacant s.slots with
  | nil => simp [hindices] at h
  | cons first others =>
    rw [hindices] at hhead
    rw [hindices] at h
    obtain ⟨rfl, rfl⟩ := cons.inj h
    obtain ⟨hlt, -⟩ := findIdx?_eq_some_iff_getElem.mp hhead.symm
    refine ⟨hhead.symm, ?_⟩
    unfold vacantSlots install
    rw [modify_eq_set (getElem?_eq_getElem hlt)]
    have hset := indices_set hhead.symm (b := { s.slots[slotIndex] with
      entry := some (newEntry id control info request) }) rfl
    rw [hindices] at hset
    rw [(cons.inj hset).2]

/-- A member that can be installed: its control is open, and no request had it before. -/
structure Installable (history : List Event) (s : RequestBroker) (member : PreparedMember) :
    Prop where
  allocated : member.control < s.controls.next
  named : (s.controls.cell member.control).requestId = (s.expectedId member.slotIndex).raw
  unpublished : requestStateIsTerminal (s.controls.cell member.control).info.requestState = false
  owner : member.submission.owner = member.request.owner
  unused : ∀ id buffers, .submitted id member.control buffers ∉ history

theorem Installable.after {mem other : PreparedMember} (h : Installable history s other)
    (hne : mem.control ≠ other.control) (id : RequestId)
    (runtime : RequestRuntime RequestOperation BrokerPayload) :
    Installable (history ++ [.submitted id mem.control mem.request.buffers])
      (({ s with runtime := runtime } : RequestBroker).install mem.slotIndex id mem.control
        mem.info mem.request) other := by
  refine ⟨h.allocated, h.named.trans ?_, h.unpublished, h.owner, fun id' buffers hsubd => ?_⟩
  · rw [expectedId_install]
    rfl
  · rcases mem_append.mp hsubd with hsubd | hsubd
    · exact h.unused id' buffers hsubd
    · obtain ⟨-, heq, -⟩ := Event.submitted.inj (mem_singleton.mp hsubd)
      exact hne heq.symm

/-- The runtime commits a batch and the broker installs it: each member goes to the slot that
was expected. -/
theorem coupled_installBatch (nowNs : Nat) (members : List PreparedMember) (s : RequestBroker)
    {history : List Event} (h : Coupled history s)
    {runtime' : RequestRuntime RequestOperation BrokerPayload}
    (hcommit : RequestRuntime.commitBatch nowNs (members.map (·.submission)) s.runtime =
      some (ids, runtime'))
    (hfits : s.runtime.diagnostics.resources + total RequestSubmission.resources
      (members.map (·.submission)) ≤ .wordMax)
    (hslots : members.map (·.slotIndex) = s.vacantSlots members.length)
    (hdist : (members.map (·.control)).Nodup)
    (hmembers : ∀ member ∈ members, Installable history s member) :
    ids = members.map (fun member => s.expectedId member.slotIndex) ∧
      Coupled (history ++ submittedEvents (members.map (·.request)) (submissions (members.zip ids)))
        (installBatch (members.zip ids) { s with runtime := runtime' }) := by
  induction members generalizing s history ids with
  | nil =>
    obtain ⟨rfl, rfl⟩ := Prod.mk.inj (Option.some.inj hcommit)
    simpa [submittedEvents, installBatch] using h
  | cons member rest ih =>
    simp only [map_cons, commitBatch, Option.bind_eq_bind,
      Option.bind_eq_some_iff, Prod.exists] at hcommit
    obtain ⟨id, runtime1, hone, ids', runtime2, hrest, rfl, rfl⟩ := hcommit
    have hmember := hmembers member mem_cons_self
    obtain ⟨hctrl, hdist⟩ := nodup_cons.mp hdist
    obtain ⟨hnext, hlater⟩ :=
      vacantSlots_install id member.control member.info member.request hslots
    have hexpected := h.expectedId_eq hone hnext
    have htotal : total RequestSubmission.resources ((member :: rest).map (·.submission)) =
        member.submission.resources +
          total RequestSubmission.resources (rest.map (·.submission)) := rfl
    rw [htotal, ← add_assoc] at hfits
    have hvis := submitOne_visible h.inv
      ((le_add_of_nonneg_right (RequestResources.zero_le _)).trans hfits) hone
    obtain ⟨-, hrsrc, -⟩ := visible_submitted hvis
    have hinst := h.install hone hnext (h.inv.visible hvis) member.info hmember.owner
      hmember.allocated (by rw [hmember.named, hexpected]) hmember.unpublished hmember.unused
    have hfits1 : runtime1.diagnostics.resources + total RequestSubmission.resources
        (rest.map (·.submission)) ≤ .wordMax := by
      rw [show runtime1.diagnostics.resources = _ from hrsrc]
      exact hfits
    have hne : ∀ other ∈ rest, member.control ≠ other.control := fun other hmem heq =>
      hctrl (mem_map.mpr ⟨other, hmem, heq.symm⟩)
    obtain ⟨hids, hcoupled⟩ := ih _ hinst hrest hfits1 hlater hdist fun other hmem =>
      (hmembers other (mem_cons_of_mem _ hmem)).after (hne other hmem) id runtime1
    constructor
    · rw [hids, map_cons, hexpected]
      exact congrArg _ (map_congr_left fun other _ => expectedId_install _)
    · rw [append_assoc] at hcoupled
      exact hcoupled

theorem Ready.installable (h : Ready s s' members) (hpreps : Prepares s s')
    (hsane : Sane limits history s) : ∀ member ∈ members, Installable history s' member := by
  intro member hmem
  have hrsv := h.reserved member hmem
  refine ⟨hrsv.allocated, hrsv.named.trans ?_, hrsv.unpublished,
    h.owner member hmem, fun id buffers hsubd => ?_⟩
  · rw [hpreps.expectedId_eq]
  · have halloc := (hsane.coupled.filed id member.control buffers hsubd).allocated
    exact absurd halloc (Nat.not_lt.mpr hrsv.fresh)

variable (h : Sane limits history s)
include h

/-- The runtime accepts the members that were prepared, under the names that were expected. -/
theorem sane_installBatch (hslots : members.map (·.slotIndex) = s.vacantSlots members.length)
    (hdist : (members.map (·.control)).Nodup)
    (hmembers : ∀ member ∈ members, Installable history s member) {outputLength nowNs : Nat}
    (hok : (s.runtime.submitBatch (members.map (·.submission)) outputLength nowNs).1 = .ok ids) :
    ids = members.map (fun member => s.expectedId member.slotIndex) ∧ Sane limits
        (history ++ submittedEvents (members.map (·.request)) (submissions (members.zip ids)))
        (installBatch (members.zip ids) { s with
          runtime :=
            (s.runtime.submitBatch (members.map (·.submission)) outputLength nowNs).2 }) := by
  have hvalid : s.runtime.limits.isValid = true := h.good.limits_eq ▸ h.good.valid
  obtain ⟨hcommit, hfits⟩ := submitBatch_eq_ok h.good.inv h.good.within hvalid hok
  obtain ⟨hids, hcoupled⟩ := coupled_installBatch nowNs members s h.coupled hcommit hfits hslots
    hdist hmembers
  refine ⟨hids, ?_, hcoupled⟩
  rw [runtime_installBatch]
  exact exec_good h.good (.submitBatch (members.map (·.submission)) outputLength nowNs)

theorem wp_submit (request : PreparedBrokerRequest) (nowNs : Nat) :
    wp (submit request nowNs) (fun result s' => (∃ slotIndex, s.nextVacantSlot = some slotIndex ∧
          result.id = s.expectedId slotIndex) ∧
        Sane limits (history ++ submittedEvents [request] [result]) s')
      (fun _ s' => Sane limits history s') s := by
  refine wp_get ?_
  cases hnext : s.nextVacantSlot with
  | none => exact wp_throw h
  | some slotIndex =>
    refine wp_bind (wp_liftExcept (fun submission hsubm => ?_) fun _ => h)
    refine wp_bind (wp_liftExcept (fun info hinfo => ?_) fun _ => h)
    refine wp_bind (wp_mono (wp_newControl (initialInfo_open hinfo) slotIndex)
      (fun control s1 hs1 => ?_) fun _ _ hs1 => hs1.sane h)
    obtain ⟨hpreps, hrsv⟩ := hs1
    let member : PreparedMember :=
      ⟨request, slotIndex, submission, info, s.expectedId slotIndex, control⟩
    have hready : Ready s s1 [member] := by
      refine ⟨nodup_singleton _, fun other hmem => ?_, fun other hmem => ?_⟩
      · rw [mem_singleton.mp hmem]
        exact hrsv
      · rw [mem_singleton.mp hmem]
        exact submission_owner hsubm
    have hslots : [member].map (·.slotIndex) = s1.vacantSlots 1 := by
      rw [hpreps.vacantSlots_eq, vacantSlots_one, hnext]
      rfl
    refine wp_bind (wp_onRuntime (fun ids hok => ?_) fun error herr => ?_)
    · obtain ⟨hids, hsane⟩ := sane_installBatch (hpreps.sane h) hslots hready.distinct
        (hready.installable hpreps h) hok
      obtain rfl : ids = [s1.expectedId slotIndex] := hids
      refine wp_modify_bind (wp_pure ⟨⟨slotIndex, rfl, ?_⟩, hsane⟩)
      exact hpreps.expectedId_eq slotIndex
    · rw [show (s1.runtime.submit submission nowNs).2 = s1.runtime from
        submitBatch_eq_error herr]
      exact hpreps.sane h

theorem wp_submitBatch (requests : List PreparedBrokerRequest) (nowNs : Nat) :
    wp (submitBatch requests nowNs) (fun results s' => results.map (·.id) =
          (s.vacantSlots requests.length).map (fun slotIndex => s.expectedId slotIndex) ∧
        Sane limits (history ++ submittedEvents requests results) s')
      (fun _ s' => Sane limits history s') s := by
  have herr : ∀ (_ : BrokerError) s', Prepares s s' → Sane limits history s' :=
    fun _ _ hs' => hs'.sane h
  refine wp_ite (fun _ => wp_throw h) fun _ => wp_get ?_
  refine wp_ite (fun _ => wp_throw h) fun _ => ?_
  refine wp_reserve (.refl s) herr fun s1 hs1 => ?_
  refine wp_ite (fun _ => wp_throw (hs1.sane h)) fun hlen => ?_
  refine wp_reserve hs1 herr fun s2 hs2 => wp_reserve hs2 herr fun s3 hs3 => ?_
  refine wp_reserve hs3 herr fun s4 hs4 => wp_reserve hs4 herr fun s5 hs5 => ?_
  refine wp_bind (wp_mono (wp_prepareBatch nowNs _ s5) (fun members s6 hs6 => ?_)
    fun _ s6 hs6 => (hs5.trans hs6).sane h)
  obtain ⟨hs6, hready, hpairs⟩ := hs6
  have herr' : ∀ (_ : BrokerError) s', Prepares s6 s' → Sane limits history s' :=
    fun _ s' hs' => (hs5.trans (hs6.trans hs')).sane h
  refine wp_reserve (.refl s6) herr' fun s7 hs7 => wp_reserve hs7 herr' fun s8 hs8 => ?_
  have hpreps := hs5.trans (hs6.trans hs8)
  have hlengths : requests.length = (s.vacantSlots requests.length).length :=
    (Decidable.not_not.mp hlen).symm
  have hreqs : members.map (·.request) = requests := by
    have hfst := congrArg (map Prod.fst) hpairs
    rwa [map_map, map_fst_zip (Nat.le_of_eq hlengths)] at hfst
  have hslots : members.map (·.slotIndex) = s.vacantSlots requests.length := by
    have hsnd := congrArg (map Prod.snd) hpairs
    rwa [map_map, map_snd_zip (Nat.le_of_eq hlengths.symm)] at hsnd
  have hmembers : members.length = requests.length := by rw [← hreqs, length_map]
  refine wp_bind (wp_onRuntime (fun ids hok => ?_) fun error herr => ?_)
  · obtain ⟨hids, hsane⟩ := sane_installBatch (hpreps.sane h)
      (by rw [hpreps.vacantSlots_eq, hmembers, hslots]) hready.distinct
      ((hready.later hs8).installable (hs6.trans hs8) (hs5.sane h)) hok
    rw [hreqs] at hsane
    refine wp_modify_bind (wp_pure ⟨?_, hsane⟩)
    have hlen : ids.length = members.length := by rw [hids, length_map]
    refine (map_id_submissions hlen).trans ?_
    rw [hids, ← hslots, map_map]
    exact map_congr_left fun member _ => hpreps.expectedId_eq member.slotIndex
  · rw [submitBatch_eq_error herr]
    exact hpreps.sane h

end Ginkgo.Kernel.Request.RequestBroker
