import Ginkgo.Kernel.RequestBroker.Calls

/-!
# Runs of the broker

A run starts with an empty broker and makes any calls; what memory is left may change at any
time.  The broker and its runtime stay in step along every run.
-/

namespace Ginkgo.Kernel.Request.RequestBroker

open Ginkgo.Ipc Ginkgo.Lib Ginkgo.Sysapi RequestRuntime

inductive Op
  | submit (request : PreparedBrokerRequest) (nowNs : Nat)
  | submitBatch (requests : List PreparedBrokerRequest) (nowNs : Nat)
  | setDurabilityTicket (id : RequestId) (ticket : Nat)
  | advanceServiceOffset (id : RequestId) (bytes : Nat)
  | nextDispatch (nowNs : Nat)
  | requeueActive (id : RequestId)
  | markDeviceOwned (id : RequestId)
  | recordCompletion (completion : BrokerCompletion)
  | runWorker (nowNs : Nat) (budget : RequestWorkerBudget)
  | requestCancellation (control : RequestControlId)
  | cancel (id : RequestId) (nowNs : Nat)
  | acknowledgeCancel (id : RequestId) (nowNs : Nat) (deviceStopped : Bool)
  | acknowledgeDrain (id : RequestId)
  | terminateThread (owner : RequestOwner) (nowNs : Nat)
  | terminateProcess (processId nowNs : Nat)
  | removeDevice (device : RequestDevice) (nowNs : Nat) (ownershipStopped : Bool)
  | resetDevice (device : RequestDevice) (nowNs : Nat)
  | beginShutdown (nowNs : Nat)
  | resumeAfterShutdownCancel
  | popAction
  | takeExternalResources (id : RequestId)
  | changeMemory (memory : Budget)

/-- A call that fails is not an event. -/
def onOk {α : Type} (call : BrokerM α) (events : α → List Event) (s : RequestBroker) :
    List Event × RequestBroker :=
  match call s with
  | .ok value s => (events value, s)
  | .error _ s => ([], s)

def silently {α : Type} (call : BrokerM α) : RequestBroker → List Event × RequestBroker :=
  onOk call fun _ => []

/-- One call, with the events it emits. -/
def exec : Op → RequestBroker → List Event × RequestBroker
  | .submit request nowNs, s =>
    onOk (submit request nowNs) (fun result => submittedEvents [request] [result]) s
  | .submitBatch requests nowNs, s => onOk (submitBatch requests nowNs) (submittedEvents requests) s
  | .setDurabilityTicket id ticket, s => silently (setDurabilityTicket id ticket) s
  | .advanceServiceOffset id bytes, s => silently (advanceServiceOffset id bytes) s
  | .nextDispatch nowNs, s => ([], (s.nextDispatch nowNs).2)
  | .requeueActive id, s => silently (requeueActive id) s
  | .markDeviceOwned id, s => silently (markDeviceOwned id) s
  | .recordCompletion completion, s => silently (recordCompletion completion) s
  | .runWorker nowNs budget, s => ([], (s.runWorker nowNs budget).2)
  | .requestCancellation control, s => ([], s.requestCancellation control)
  | .cancel id nowNs, s => silently (cancel id nowNs) s
  | .acknowledgeCancel id nowNs deviceStopped, s =>
    silently (acknowledgeCancel id nowNs deviceStopped) s
  | .acknowledgeDrain id, s => silently (acknowledgeDrain id) s
  | .terminateThread owner nowNs, s => ([], (s.terminateThread owner nowNs).2)
  | .terminateProcess processId nowNs, s => ([], (s.terminateProcess processId nowNs).2)
  | .removeDevice device nowNs ownershipStopped, s =>
    ([], (s.removeDevice device nowNs ownershipStopped).2)
  | .resetDevice device nowNs, s => ([], (s.resetDevice device nowNs).2)
  | .beginShutdown nowNs, s => ([], (s.beginShutdown nowNs).2)
  | .resumeAfterShutdownCancel, s => ([], s.resumeAfterShutdownCancel)
  | .popAction, s => onOk popAction (fun action => action.toList.map .popped) s
  | .takeExternalResources id, s =>
    onOk (takeExternalResources id) (fun released => [.taken id released.buffers]) s
  | .changeMemory memory, s => ([], { s with memory := memory })

def Step (s : RequestBroker) (events : List Event) (s' : RequestBroker) : Prop :=
  ∃ op, exec op s = (events, s')

def execAll : List Op → RequestBroker → List Event × RequestBroker
  | [], s => ([], s)
  | op :: ops, s =>
    let (events, s) := exec op s
    let (history, s) := execAll ops s
    (events ++ history, s)

theorem run_execAll (ops : List Op) (s : RequestBroker) :
    Star Step s (execAll ops s).1 (execAll ops s).2 := by
  induction ops generalizing s with
  | nil => exact .refl s
  | cons op ops ih => exact (Star.single ⟨op, rfl⟩).trans (ih (exec op s).2)

/-! ## Every call keeps the tables coupled -/

section Steps

variable {limits : RequestLimits} {history : List Event} {s s' : RequestBroker}

/-- The call leaves every request where it is, whether it fails or not. -/
def KeepsSane (limits : RequestLimits) (history : List Event) {α : Type} (call : BrokerM α)
    (s : RequestBroker) : Prop :=
  wp call (fun _ s' => Sane limits history s') (fun _ s' => Sane limits history s') s

theorem Sane.silent (h : Sane limits history s) : Sane limits (history ++ []) s := by
  rw [List.append_nil]
  exact h

theorem sane_onOk {α : Type} {call : BrokerM α} {events : α → List Event}
    (h : wp call (fun value s' => Sane limits (history ++ events value) s')
      (fun _ s' => Sane limits history s') s) :
    Sane limits (history ++ (onOk call events s).1) (onOk call events s).2 := by
  unfold wp at h
  unfold onOk
  cases hcall : call s with
  | ok value s' =>
    rw [hcall] at h
    exact h
  | error error s' =>
    rw [hcall] at h
    rw [List.append_nil]
    exact h

theorem sane_silently {α : Type} {call : BrokerM α} (h : KeepsSane limits history call s) :
    Sane limits (history ++ (silently call s).1) (silently call s).2 :=
  sane_onOk (wp_mono h (fun _ _ hs' => hs'.silent) fun _ _ hs' => hs')

section

variable (h : Sane limits history s)
include h

section

variable (op : Request.Op RequestOperation BrokerPayload) (hop : op.IsQuiet)
include hop

theorem keepsSane_onRuntime {α : Type}
    {call : RequestRuntime RequestOperation BrokerPayload →
      Except RequestError α × RequestRuntime RequestOperation BrokerPayload}
    (hcall : (call s.runtime).2 = (RequestRuntime.exec op s.runtime).2) :
    KeepsSane limits history (onRuntime call) s :=
  wp_onRuntime (fun _ _ => h.quiet op hop hcall (.of_eq rfl rfl))
    fun _ _ => h.quiet op hop hcall (.of_eq rfl rfl)

theorem sane_onAll {call : RequestRuntime RequestOperation BrokerPayload →
      Nat × RequestRuntime RequestOperation BrokerPayload}
    (hcall : (call s.runtime).2 = (RequestRuntime.exec op s.runtime).2) :
    Sane limits history (onAll call s).2 := by
  have hmid : Sane limits history { s with runtime := (call s.runtime).2 } :=
    h.quiet op hop hcall (.of_eq rfl rfl)
  exact hmid.stays (runtime_synchronizeAllInfo _) (.synchronizeAllInfo _)

end

theorem Sane.synchronizeInfo (id : RequestId) : Sane limits history (s.synchronizeInfo id) :=
  h.stays (runtime_synchronizeInfo id s) (.synchronizeInfo s id)

theorem Sane.modifyEntry (id : RequestId)
    {f : BrokerEntry → BrokerEntry} (hf : ∀ entry, EntryKin entry (f entry)) :
    Sane limits history (s.modifyEntry id f) :=
  h.stays (runtime_modifyEntry id f s) (.modifyEntry s id hf)

theorem Sane.requestCancellation (control : RequestControlId) :
    Sane limits history (s.requestCancellation control) :=
  h.stays (by unfold RequestBroker.requestCancellation; split <;> rfl)
    (.requestCancellation s control)

theorem keepsSane_setDurabilityTicket (id : RequestId) (ticket : Nat) :
    KeepsSane limits history (setDurabilityTicket id ticket) s := by
  refine wp_get ?_
  cases s.entry id with
  | none => exact wp_throw h
  | some entry =>
    dsimp only
    split
    · exact wp_ite (fun _ => wp_throw h) fun _ => wp_pure h
    · refine wp_set (h.modifyEntry id ?_)
      exact fun _ => ⟨rfl, rfl, rfl, rfl, rfl, rfl⟩

theorem keepsSane_advanceServiceOffset (id : RequestId) (bytes : Nat) :
    KeepsSane limits history (advanceServiceOffset id bytes) s := by
  refine wp_get ?_
  cases s.runtime.request id with
  | none => exact wp_throw h
  | some snapshot =>
    refine wp_ite (fun _ => wp_throw h) fun _ => ?_
    cases s.entry id with
    | none => exact wp_throw h
    | some entry =>
      refine wp_bind (wp_liftExcept (fun offset _ => ?_) fun _ => h)
      refine wp_ite (fun _ => wp_throw h) fun _ => ?_
      refine wp_set_bind (wp_pure (h.modifyEntry id ?_))
      exact fun _ => ⟨rfl, rfl, rfl, rfl, rfl, rfl⟩

theorem sane_nextDispatch (now : Nat) : Sane limits history (s.nextDispatch now).2 := by
  have hmid : Sane limits history { s with runtime := (s.runtime.nextDispatch now).2 } :=
    h.quiet (.nextDispatch now) trivial rfl (.of_eq rfl rfl)
  unfold nextDispatch
  rcases hdisp : s.runtime.nextDispatch now with ⟨dispatch, runtime⟩
  rw [hdisp] at hmid
  cases dispatch with
  | none => exact hmid
  | some dispatch => exact hmid.synchronizeInfo dispatch.id

theorem keepsSane_recordCompletion (completion : BrokerCompletion) :
    KeepsSane limits history (recordCompletion completion) s := by
  refine wp_get (wp_bind ?_)
  refine wp_mono (keepsSane_onRuntime h (.recordCompletion
    ⟨completion.id, completion.status, completion.deviceReleased⟩) trivial rfl)
    (fun _ s1 hs1 => ?_) fun _ _ hs1 => hs1
  refine wp_ite (fun _ => wp_modify (hs1.modifyEntry _ fun entry => ?_)) fun _ => wp_pure hs1
  split <;> exact ⟨rfl, rfl, rfl, rfl, rfl, rfl⟩

end

/-- The calls that change the runtime and then bring the metadata of one request up to date. -/
theorem keepsSane_thenSynchronize (id : RequestId) {call : BrokerM Unit}
    (hcall : KeepsSane limits history call s) :
    KeepsSane limits history (do call; modify (synchronizeInfo id)) s :=
  wp_seq hcall fun _ _ hs1 => wp_modify (hs1.synchronizeInfo id)

theorem keepsSane_cancel (h : Sane limits history s) (id : RequestId) (now : Nat) :
    KeepsSane limits history (cancel id now) s := by
  refine wp_seq (keepsSane_onRuntime h (.cancel id now) trivial rfl) fun _ s1 hs1 => wp_get ?_
  cases s1.entry id with
  | none => exact wp_bind (wp_pure (wp_modify (hs1.synchronizeInfo id)))
  | some entry =>
    exact wp_set_bind (wp_modify ((hs1.requestCancellation entry.control).synchronizeInfo id))

theorem exec_sane (h : Sane limits history s) (op : Op) :
    Sane limits (history ++ (exec op s).1) (exec op s).2 := by
  cases op with
  | submit request now =>
    exact sane_onOk (wp_mono (wp_submit h request now) (fun _ _ hs' => hs'.2) fun _ _ hs' => hs')
  | submitBatch requests now =>
    exact sane_onOk (wp_mono (wp_submitBatch h requests now) (fun _ _ hs' => hs'.2)
      fun _ _ hs' => hs')
  | popAction =>
    exact sane_onOk (wp_mono (wp_popAction h) (fun _ _ hs' => hs'.2) fun _ _ hs' => hs'.elim)
  | takeExternalResources id => exact sane_onOk (wp_takeExternalResources h id)
  | setDurabilityTicket id ticket => exact sane_silently (keepsSane_setDurabilityTicket h id ticket)
  | advanceServiceOffset id bytes => exact sane_silently (keepsSane_advanceServiceOffset h id bytes)
  | requeueActive id =>
    exact sane_silently (keepsSane_thenSynchronize id
      (keepsSane_onRuntime h (.requeueActive id) trivial rfl))
  | markDeviceOwned id =>
    exact sane_silently (keepsSane_onRuntime h (.markDeviceOwned id) trivial rfl)
  | recordCompletion completion => exact sane_silently (keepsSane_recordCompletion h completion)
  | cancel id now => exact sane_silently (keepsSane_cancel h id now)
  | acknowledgeCancel id now deviceStopped =>
    exact sane_silently (keepsSane_thenSynchronize id
      (keepsSane_onRuntime h (.acknowledgeCancel id now deviceStopped) trivial rfl))
  | acknowledgeDrain id =>
    exact sane_silently (keepsSane_onRuntime h (.acknowledgeDrain id) trivial rfl)
  | nextDispatch now => exact (sane_nextDispatch h now).silent
  | requestCancellation control => exact (h.requestCancellation control).silent
  | runWorker now budget =>
    have hmid : Sane limits history { s with runtime := (s.runtime.runWorker now budget).2 } :=
      h.quiet (.runWorker now budget) trivial rfl (.of_eq rfl rfl)
    exact (hmid.stays (runtime_synchronizeAllInfo _) (.synchronizeAllInfo _)).silent
  | terminateThread owner now =>
    exact (sane_onAll h (.terminateThread owner now) trivial rfl).silent
  | terminateProcess processId now =>
    exact (sane_onAll h (.terminateProcess processId now) trivial rfl).silent
  | removeDevice device now stopped =>
    exact (sane_onAll h (.removeDevice device now stopped) trivial rfl).silent
  | resetDevice device now => exact (sane_onAll h (.resetDevice device now) trivial rfl).silent
  | beginShutdown now => exact (sane_onAll h (.beginShutdown now) trivial rfl).silent
  | resumeAfterShutdownCancel =>
    have hs' : Sane limits history s.resumeAfterShutdownCancel :=
      h.quiet .resumeAfterShutdownCancel trivial rfl (.of_eq rfl rfl)
    exact hs'.silent
  | changeMemory memory =>
    have hs' : Sane limits history { s with memory := memory } := h.stays rfl (.of_eq rfl rfl)
    exact hs'.silent

theorem run_sane (h : Sane limits [] s) (hrun : Star Step s history s') :
    Sane limits history s' := by
  refine hrun.invariant h fun past s₁ events s2 hs₁ hstep => ?_
  obtain ⟨op, hexec⟩ := hstep
  have hs2 := exec_sane hs₁ op
  rw [hexec] at hs2
  exact hs2

end Steps

theorem coupled_new {limits : RequestLimits} (hvalid : limits.isValid = true) (memory : Budget) :
    Coupled [] (new limits memory) where
  inv := inv_vacant limits hvalid
  tables := by
    have hslots : (new limits memory).runtime.book.slots =
        List.replicate limits.systemCapacity .vacant := by
      simp [new, book, vacant, RequestSlot.erase, RequestSlot.vacant]
    rw [hslots]
    exact forall₂_replicate ⟨rfl, rfl, .none⟩ _
  filed _ _ _ hmem := absurd hmem List.not_mem_nil
  exclusive _ _ _ _ _ hmem := absurd hmem List.not_mem_nil
  unissued _ _ := ⟨rfl, rfl⟩

theorem tryNewWithLimits_sane {limits : RequestLimits} {memory : Budget} {s : RequestBroker}
    (h : tryNewWithLimits limits memory = .ok s) : Sane limits [] s := by
  unfold tryNewWithLimits at h
  split at h
  · cases h
  rename_i runtime memory' hruntime
  obtain ⟨hvalid, rfl⟩ := tryNewWithLimits_ok hruntime
  split at h
  · cases h
  · obtain rfl := Except.ok.inj h
    exact ⟨⟨inv_vacant limits hvalid, within_vacant limits, hvalid,
      rfl⟩, coupled_new hvalid _⟩

/-! ## In step -/

/-- What a slot shows of itself. -/
structure Occupancy where
  generation : Nat
  retired : Bool
  id : Option RequestId
  deriving DecidableEq

def brokerOccupancy (slot : BrokerSlot) : Occupancy :=
  ⟨slot.generation, slot.retired, slot.entry.map (·.id)⟩

def runtimeOccupancy (slot : RequestSlot RequestOperation BrokerPayload) : Occupancy :=
  ⟨slot.generation, slot.retired, slot.request.map (·.id)⟩

/-- The end that the runtime has announced for a request it still holds. -/
def announced (r : KernelRequest RequestOperation BrokerPayload) : List Publication :=
  if r.terminalPublicationDispatched then [⟨r.state, r.status, r.completedAtNs.getD 0⟩] else []

/-- What became of a submitted request: its control shows what was announced, and its buffers
are handed out when it leaves the tables. -/
structure Followed (history : List Event) (s : RequestBroker) (id : RequestId)
    (control : RequestControlId) (buffers : List PreparedRequestBuffer) : Prop where
  named : (s.controls.cell control).requestId = id.raw
  reported : Reports (publications id history) (s.controls.cell control).info
  outcome : (∃ r, s.runtime.request id = some r ∧ publications id history = announced r ∧
      takings id history = []) ∨
    (s.runtime.request id = none ∧ (∃ publication, publications id history = [publication]) ∧
      takings id history = [buffers])

/-- The broker and its runtime have not drifted apart. -/
structure InStep (history : List Event) (s : RequestBroker) : Prop where
  occupied : s.slots.map brokerOccupancy = s.runtime.slots.map runtimeOccupancy
  submit : ∀ request nowNs result s', submit request nowNs s = .ok result s' →
    ∃ slotIndex, s.nextVacantSlot = some slotIndex ∧ result.id = s.expectedId slotIndex
  submitBatch : ∀ requests nowNs results s', submitBatch requests nowNs s = .ok results s' →
    results.map (·.id) = (s.vacantSlots requests.length).map fun slotIndex => s.expectedId slotIndex
  popAction : ∀ error s', popAction s ≠ .error error s'
  published : ∀ id state status completedAtNs s', RequestBroker.popAction s =
        .ok (some (.publishTerminal id state status completedAtNs)) s' →
      ∃ r, s.runtime.request id = some r ∧ isTerminal r.state = true ∧ r.state = state ∧
        r.status = status ∧ r.completedAtNs = some completedAtNs
  followed : ∀ id control buffers, .submitted id control buffers ∈ history →
    Followed history s id control buffers

variable {limits : RequestLimits} {history : List Event} {s s₀ : RequestBroker}

theorem Coupled.occupied (h : Coupled history s) :
    s.slots.map brokerOccupancy = s.runtime.slots.map runtimeOccupancy := by
  have herase : s.runtime.slots.map runtimeOccupancy =
      s.runtime.book.slots.map runtimeOccupancy := by
    simp only [book]
    simp [runtimeOccupancy, RequestSlot.erase, KernelRequest.erase, Function.comp_def]
  rw [herase]
  refine forall₂_map_eq (fun slot slot' hmates => ?_) h.tables
  obtain ⟨hgen, hret, hent⟩ := hmates
  unfold brokerOccupancy runtimeOccupancy
  rw [hgen, hret]
  generalize slot.entry = entry at hent
  generalize slot'.request = r at hent
  cases hent with
  | none => rfl
  | some hpaired => rw [Option.map_some, Option.map_some, hpaired.id]

theorem Coupled.followed (h : Coupled history s) {id : RequestId} {control : RequestControlId}
    {buffers : List PreparedRequestBuffer} (hmem : .submitted id control buffers ∈ history) :
    Followed history s id control buffers := by
  have hfiled := h.filed id control buffers hmem
  refine ⟨hfiled.named, hfiled.reported, ?_⟩
  rcases hfiled.whereabouts with ⟨i, g, entry, hent, rfl, -, -⟩ | hgone
  · obtain ⟨r, hr, hpaired⟩ := h.paired hent
    obtain ⟨x, hx, rfl⟩ := request_of_live h.inv ⟨i, g, hr⟩
    rw [hpaired.id]
    exact .inl ⟨x, hx, hpaired.published, hpaired.untaken⟩
  · refine .inr ⟨?_, ?_, hgone.taken⟩
    · cases hreq : s.runtime.request id with
      | none => rfl
      | some r =>
        obtain ⟨hlive, hid⟩ := live_of_request hreq
        exact absurd hid (hgone.absent r.erase hlive)
    · have hreported := hfiled.reported
      rcases hpublications : publications id history with _ | ⟨publication, _ | ⟨next, rest⟩⟩
      · exact absurd hpublications hgone.published
      · exact ⟨publication, rfl⟩
      · rw [hpublications] at hreported
        exact hreported.elim

theorem Sane.inStep (h : Sane limits history s) : InStep history s where
  occupied := h.coupled.occupied
  submit request nowNs result s' hsubmit := (wp_ok (wp_submit h request nowNs) hsubmit).1
  submitBatch requests nowNs results s' hsubmit :=
    (wp_ok (wp_submitBatch h requests nowNs) hsubmit).1
  popAction error s' hpop := wp_error (wp_popAction h) hpop
  published id state status completedAtNs s' hpop := by
    have haction := (wp_ok (wp_popAction h) hpop).1
    cases hacts : s.runtime.actions with
    | nil => simp [nextAction, hacts] at haction
    | cons act rest =>
      obtain ⟨hsome, i, g, r, hr, hdesc, -⟩ := nextAction_cons h.good.inv hacts
      rw [hsome] at haction
      cases haction
      obtain ⟨rfl, hterm, rfl, rfl, hcomp⟩ := hdesc
      obtain ⟨x, hx, rfl⟩ := request_of_live h.good.inv ⟨i, g, hr⟩
      exact ⟨x, hx, hterm, rfl, rfl, hcomp⟩
  followed _ _ _ hmem := h.coupled.followed hmem

/-- In every state of a run the two tables agree, the names are those expected, no action is
refused, and every request is announced and emptied once. -/
theorem run_inStep {memory : Budget} (hnew : tryNewWithLimits limits memory = .ok s₀)
    (hrun : Star Step s₀ history s) : InStep history s :=
  (run_sane (tryNewWithLimits_sane hnew) hrun).inStep

/-- A request for nothing, with one buffer. -/
def nopRequest : PreparedBrokerRequest where
  owner := ⟨1, 1⟩
  target := ⟨0⟩
  targetLease := .none
  device := none
  operation := .nop
  completionMode := .handle
  payload := ⟨0, 7, 0⟩
  deadlineNs := none
  buffers := [.copied 0 4096 [1, 2]]

/-- The request is served and its buffer is taken back. -/
def servedNop : List Op :=
  [.submit nopRequest 10, .nextDispatch 11, .recordCompletion ⟨.fromParts 0 1, .ok, true, 2, 0⟩,
    .runWorker 12 ⟨1, 1⟩,
    .popAction,
    .popAction,
    .takeExternalResources (.fromParts 0 1)]

theorem tryNewWithLimits_pair :
    tryNewWithLimits RequestRuntime.pairLimits none =
      .ok (new RequestRuntime.pairLimits none) := rfl

theorem run_inStep_servedNop :
    takings (.fromParts 0 1) (execAll servedNop (new RequestRuntime.pairLimits none)).1 =
        [nopRequest.buffers] ∧
      Followed (execAll servedNop (new RequestRuntime.pairLimits none)).1
        (execAll servedNop (new RequestRuntime.pairLimits none)).2 (.fromParts 0 1) 0
        nopRequest.buffers :=
  ⟨by decide +kernel, (run_inStep tryNewWithLimits_pair (run_execAll servedNop _)).followed _ _ _
    (by decide +kernel)⟩

/-- The runtime of a broker keeps its accounts and limits. -/
theorem run_accounted {memory : Budget} (hnew : tryNewWithLimits limits memory = .ok s₀)
    (hrun : Star Step s₀ history s) : s.runtime.limits = limits ∧ s.runtime.Accounted := by
  have hgood := (run_sane (tryNewWithLimits_sane hnew) hrun).good
  exact ⟨hgood.limits_eq, accounted_of_good hgood⟩

/-- The request is running. -/
theorem run_accounted_servedNop :
    let s := (execAll (servedNop.take 2) (new RequestRuntime.pairLimits none)).2
    s.runtime.diagnostics.liveRequests = 1 ∧ s.runtime.Accounted :=
  ⟨by decide +kernel, (run_accounted tryNewWithLimits_pair (run_execAll _ _)).2⟩

end Ginkgo.Kernel.Request.RequestBroker
