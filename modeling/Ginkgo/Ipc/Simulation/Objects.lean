import Ginkgo.Ipc.Simulation

/-!
# Windows, controls and queries
-/

namespace Ginkgo.Ipc

open Ginkgo.Lib Ginkgo.Sysapi

variable {n : Nat} {s : System n} {t : Fin n} {α β : Type} {role : WindowRole} {handle : Handle}
  {x : IpcM n α} {w : WindowId}

theorem windowEndpointForRole_ok {object : Object}
    (h : windowEndpointForRole object role = .ok w) : object.kernel = .window w role := by
  unfold windowEndpointForRole windowEndpoint at h
  split at h
  · cases h
  rename_i w' role' hwindow
  split at hwindow
  · rename_i w'' role'' hker
    cases hwindow
    split at h
    · cases h
    · rename_i hrole
      cases h
      rw [not_not] at hrole
      rw [hker, hrole]
  · cases hwindow

theorem wp_windowForRole (hwf : Wf s.frame) {required : Rights} {Q : WindowId → System n → Prop}
    (hQ : ∀ w, w < s.windows.next → (s.tables t).findWindow handle = some w → Q w s) :
    wp (windowForRole t handle required role) Q (Fails keeping s) s := by
  apply wp_objectWithRights (.refl s)
  intro e hent
  apply wp_liftExcept (.refl s)
  intro w hw
  have hker := windowEndpointForRole_ok hw
  have hcell := hwf.allocated_entry hent
  rw [hker] at hcell
  refine hQ w hcell ?_
  rw [HandleTable.findWindow, find_eq_some hent]
  simp only [Option.bind_some, hker]

theorem wp_commitWindow {st : WindowState} {events : List (Event n)}
    {Q : Unit → System n → Prop} {E : Fault → System n → Prop} (hcell : w < s.windows.next)
    (hstep : WindowStep w (s.windows.cell w) events st)
    (hQ : ∀ s', Star (Moves keeping) s.frame events s'.frame → Q () s') :
    wp (commitWindow w st) Q E s := by
  apply hQ
  have hcommit : Star (Moves keeping) s.frame events _ :=
    .single (.service service_mem (.window w hcell hstep))
  have hclient := hcommit.quiet (.service service_mem .notify)
  exact hclient.quiet (.service service_mem .notify)

/-- The beginning shared by the operations on one window: find it, then try `f` on it. -/
theorem wp_tryWindow (hwf : Wf s.frame) {required : Rights} {f : WindowState → Except IpcError α}
    {k : WindowId → α → IpcM n β} {Q : β → System n → Prop}
    (hQ : ∀ w a, w < s.windows.next → (s.tables t).findWindow handle = some w →
      f (s.windows.cell w) = .ok a → wp (k w a) Q (Fails keeping s) s) : wp (do
      let w ← windowForRole t handle required role
      let s ← get
      let a ← liftExcept (f (s.windows.cell w))
      k w a) Q (Fails keeping s) s := by
  apply wp_bind
  apply wp_windowForRole hwf
  intro w hcell hfind
  apply wp_liftExcept_bind (.refl s)
  intro a ha
  exact hQ w a hcell hfind ha

theorem WindowOp.simulated (hwf : Wf s.frame) (op : WindowOp n) :
    Simulated keeping op.run (fun value _ => op.events s value) s := by
  cases op with
  | windowPresent t client bufferIndex generation =>
    apply Simulated.map
    apply wp_tryWindow hwf (f := (·.present bufferIndex generation))
    rintro w ⟨presentation, st⟩ hcell hfind hpres
    apply wp_bind
    apply wp_commitWindow hcell (.present hpres)
    intro s' hstar
    simp only [WindowOp.events, windowEvents, hfind]
    exact hstar
  | windowReadRelease t client =>
    apply Simulated.map
    apply wp_tryWindow hwf
    rintro w ⟨release, st⟩ hcell hfind hrel
    apply wp_bind
    apply wp_commitWindow hcell (.readRelease hrel)
    intro s' hstar
    simp only [WindowOp.events, windowEvents, hfind]
    exact hstar
  | windowManagerCopyPending t manager presentation offset length =>
    apply Simulated.map
    apply wp_bind
    apply wp_windowForRole hwf
    intro w hcell _
    apply wp_get
    apply wp_guard (.refl s)
    intro _
    apply wp_bind
    apply wp_liftExcept_bind (.refl s)
    intro start _
    apply wp_liftExcept (.refl s)
    intro bytes _
    apply wp_modify_bind
    exact wp_pure (.single (.service service_mem (.readPending w hcell)))
  | windowManagerDiscardPending t manager presentation =>
    apply Simulated.bind_pure
    apply wp_tryWindow hwf (f := (·.discardPending presentation))
    intro w st hcell _ hdiscard
    exact wp_commitWindow hcell (.discardPending hdiscard) fun s' hstar => hstar
  | windowManagerCoalescePending t manager pending ri generation =>
    apply Simulated.map
    apply wp_tryWindow hwf (f := (·.coalescePending pending ri generation))
    rintro w ⟨replacement, st⟩ hcell hfind hcoalesce
    apply wp_bind
    apply wp_commitWindow hcell (.coalescePending hcoalesce)
    intro s' hstar
    simp only [WindowOp.events, windowEvents, hfind]
    exact hstar
  | windowManagerComplete t manager presentation successful =>
    apply Simulated.bind_pure
    apply wp_tryWindow hwf (f := (·.complete presentation successful))
    intro w st hcell _ hcompl
    cases st with
    | none => exact wp_pure (.refl _)
    | some st => exact wp_commitWindow hcell (.complete hcompl) fun s' hstar => hstar
  | windowManagerRetire t manager =>
    apply Simulated.bind_pure
    apply wp_tryWindow hwf
    intro w st hcell _ hretire
    cases st with
    | none => exact wp_pure (.refl _)
    | some st => exact wp_commitWindow hcell (.retire hretire) fun s' hstar => hstar

/-- A change of state that references and waiters do not depend on. -/
theorem Simulated.silent {s' : System n} {a : α} (hx : x s = .ok a s')
    (hsame : SameObjects s s') : Simulated keeping x (fun _ _ => []) s := by
  unfold Simulated wp
  rw [hx]
  exact (Reaches.refl s).silent (.inl service_mem) hsame

theorem processControl_ok {object : Object} {p : ProcessControlId}
    (h : processControl object = .ok p) : object.kernel = .process p := by
  unfold processControl at h
  split at h
  · rename_i hker
    cases h
    exact hker
  · cases h

theorem processTerminate_simulated (hwf : Wf s.frame) (t : Fin n) (handle : Handle) :
    Simulated keeping (processTerminate t handle) (fun _ _ => []) s := by
  apply wp_objectWithRights (.refl s)
  intro e hent
  apply wp_liftExcept_bind (.refl s)
  intro p hp
  have hcell := hwf.allocated_entry hent
  rw [processControl_ok hp] at hcell
  apply wp_ite
  · intro _
    exact wp_pure (.refl _)
  · intro _
    exact .single (.service service_mem (.process p _ hcell (fun _ => rfl) fun _ => rfl))

theorem processMarkTerminal_simulated {p : ProcessControlId} {info : ProcessInfo}
    (hcell : p < s.processes.next) :
    Simulated keeping (processMarkTerminal p info) (fun _ _ => []) s := by
  apply wp_ite
  · intro _
    exact wp_pure (.refl _)
  intro _
  have hpublish : Star (Moves keeping) s.frame [] _ :=
    .single (.service service_mem (.publishProcess p info hcell))
  exact hpublish.quiet (.service service_mem .notify)

theorem requestPublishTerminal_simulated {r : RequestControlId} {info : RequestInfo}
    (hcell : r < s.requests.next) :
    Simulated keeping (requestPublishTerminal r info) (fun _ _ => []) s := by
  apply wp_ite
  · intro _
    exact wp_pure (.refl _)
  intro _
  apply wp_ite
  · intro _
    exact wp_pure (.refl _)
  intro _
  have hpublish : Star (Moves keeping) s.frame [] _ :=
    .single (.service service_mem (.publishRequest r info hcell))
  exact hpublish.quiet (.service service_mem .notify)

theorem ControlOp.simulated (hwf : Wf s.frame) (op : ControlOp n)
    (hvalid : (Op.control op).valid s = true) :
    Simulated keeping op.run (fun _ _ => []) s := by
  cases op with
  | storageNew storage => exact .silent rfl (.aside s)
  | sharedMemoryWrite t handle offset input =>
    apply Simulated.bind_pure
    apply wp_objectWithRights (.refl s)
    intro e _
    apply wp_liftExcept_bind (.refl s)
    intro memory _
    apply wp_liftExcept_bind (.refl s)
    intro _ _
    apply wp_liftExcept_bind (.refl s)
    intro storage _
    exact (Reaches.refl s).silent (.inl service_mem) (.aside s)
  | processTerminate t handle => exact (processTerminate_simulated hwf t handle).bind_pure
  | processRegisterTerminationObserver process token observer =>
    simp only [Op.valid, Bool.and_eq_true, decide_eq_true_eq] at hvalid
    apply Simulated.bind_pure
    apply wp_get
    apply wp_guard (.refl s)
    intro _
    have hmove := Service.process
      (f := ({ · with terminationObserver := some (token, observer) })) process [] hvalid.1
      (fun _ => rfl) fun _ => rfl
    rw [List.append_nil] at hmove
    exact .single (.service service_mem hmove)
  | processMarkExited process exitCode | processMarkTerminated process =>
    exact (processMarkTerminal_simulated (of_decide_eq_true hvalid)).map
  | processMarkFaulted process fault faultCode faultAddress =>
    apply Simulated.map
    apply wp_ite
    · intro _
      exact wp_pure (.refl _)
    · intro _
      exact processMarkTerminal_simulated (of_decide_eq_true hvalid)
  | requestNew requestId info =>
    apply Simulated.map
    unfold Simulated Ipc.requestNew
    apply wp_guard (.refl s)
    intro _
    apply wp_tryAlloc (.refl s) service_mem
    intro s1 _ h1
    apply wp_get
    apply wp_set_bind
    exact wp_pure (Star.quiet h1 (.service service_mem .newRequest))
  | requestCancellation request =>
    apply Simulated.map
    apply wp_ite
    · intro _
      exact wp_pure (.refl _)
    intro _
    apply wp_set_bind
    exact wp_pure (.single (.service service_mem (.request request (of_decide_eq_true hvalid))))
  | requestPublishTerminal request info =>
    exact (requestPublishTerminal_simulated (of_decide_eq_true hvalid)).map
  | systemPowerNew =>
    apply Simulated.map
    apply wp_tryAlloc (.refl s) service_mem
    intro s1 _ h1
    apply wp_get
    apply wp_set_bind
    exact wp_pure (h1.silent (.inl service_mem) (.aside s1))
  | systemPowerRequest t handle act flags deadlineNs | systemPowerCancel t handle =>
    apply Simulated.bind_pure
    apply wp_objectWithRights (.refl s)
    intro e _
    apply wp_liftExcept_bind (.refl s)
    intro power _
    apply wp_liftExcept_bind (.refl s)
    intro info _
    exact (Reaches.refl s).silent (.inl service_mem) (.aside s)
  | schedulingAuthorityActivate authority =>
    exact .silent rfl (.aside s)
  | schedulingAuthorityRevoke authority =>
    exact .silent rfl (.aside s)

/-! ## Queries -/

/-- A program that changes nothing and fails with ordinary errors only. -/
def Observes (x : IpcM n α) : Prop :=
  ∀ s, wp x (fun _ s' => s' = s) (fun fault s' => (∃ e, fault = .error e) ∧ s' = s) s

namespace Observes

theorem bind {f : α → IpcM n β} (hx : Observes x) (hf : ∀ a, Observes (f a)) :
    Observes (x >>= f) := by
  intro s
  apply wp_seq (hx s)
  rintro a s' rfl
  exact hf a s'

theorem map {g : α → β} (hx : Observes x) : Observes (g <$> x) :=
  fun s => wp_map (hx s)

theorem pure (a : α) : Observes (Pure.pure a : IpcM n α) := fun _ => rfl

theorem get : Observes (MonadState.get : IpcM n (System n)) := fun _ => rfl

theorem fail (e : IpcError) : Observes (Ipc.fail e : IpcM n α) := fun _ => ⟨⟨e, rfl⟩, rfl⟩

theorem liftExcept (x : Except IpcError α) : Observes (Ipc.liftExcept x : IpcM n α) := by
  cases x with
  | ok a => exact pure a
  | error e => exact fail e

theorem guard {p : Prop} [Decidable p] {e : IpcError} {rest : Unit → IpcM n α}
    (h : Observes (rest ())) : Observes (if p then Ipc.fail e >>= rest else rest ()) := by
  intro s
  apply wp_ite
  · intro _
    exact wp_bind ((fail e : Observes (Ipc.fail e : IpcM n Unit)) s)
  · intro _
    exact h s

variable (t : Fin n)

theorem objectWithRights (handle : Handle) (required : Rights) :
    Observes (Ipc.objectWithRights t handle required) :=
  get.bind fun _ => liftExcept _

theorem windowForRole (handle : Handle) (required : Rights) (role : WindowRole) :
    Observes (Ipc.windowForRole t handle required role) :=
  (objectWithRights t handle required).bind fun _ => liftExcept _

theorem lookup (handle : Handle) (required : Rights)
    (select : KernelObject → Option α) : Observes (Ipc.lookup t handle required select) := by
  apply (objectWithRights t handle required).bind
  intro object
  cases select object.kernel with
  | none => exact fail _
  | some a => exact pure a

/-- The shape of most queries: check a handle, match the object, read its cell. -/
theorem read {γ : Type} (handle : Handle) (required : Rights)
    {select : Object → Except IpcError α} {f : α → System n → β} {g : β → γ} :
    Observes (g <$> (do
      let object ← Ipc.objectWithRights t handle required
      let a ← Ipc.liftExcept (select object)
      let s ← MonadState.get
      Pure.pure (f a s) : IpcM n β)) := by
  apply map
  apply (objectWithRights t handle required).bind
  intro object
  apply (liftExcept _).bind
  intro a
  exact get.bind fun _ => pure _

theorem objectSignals (handle : Handle) : Observes (Ipc.objectSignals t handle) := by
  apply (objectWithRights t handle _).bind
  intro object
  apply get.bind
  intro s
  split <;> exact pure _

theorem pollItems (items : List WaitItem) (i : Nat) (ready : Option Nat) :
    Observes (Ipc.pollItems t items i ready) := by
  induction items generalizing i ready with
  | nil => exact pure _
  | cons item rest ih =>
    apply (objectSignals t item.handle).bind
    intro pending
    apply (ih _ _).bind
    intro _
    exact pure _

end Observes

theorem Query.observes (q : Query n) : Observes q.run := by
  cases q with
  | handleRights t handle | objectType t handle =>
    exact Observes.get.bind fun _ => (Observes.liftExcept _).map
  | objectSignals t handle => exact (Observes.objectSignals t handle).map
  | pollWaitMany t items => exact (Observes.pollItems t items 0 none).bind fun _ => .pure _
  | processInfo t handle | requestInfo t handle | systemPowerInfo t handle
  | sharedMemoryLen t handle =>
    exact Observes.read t handle _
  | requestCancellationControl t handle =>
    apply Observes.bind
    · apply (Observes.objectWithRights t handle _).bind
      intro object
      apply (Observes.liftExcept _).bind
      intro r
      exact Observes.get.bind fun _ => .pure _
    · exact fun _ => .pure _
  | schedulingAuthorityLease t handle requested =>
    apply Observes.bind
    · apply (Observes.objectWithRights t handle _).bind
      intro object
      split
      · apply Observes.get.bind
        intro s
        exact (Observes.liftExcept _).bind fun _ => .pure _
      · exact .fail _
    · exact fun _ => .pure _
  | randomSource t handle | filesystemRoot t handle required =>
    exact (Observes.lookup t handle _ _).bind fun _ => .pure _
  | applicationDataScope t handle required | filesystemDirectory t handle required
  | filesystemFile t handle required =>
    exact (Observes.lookup t handle _ _).map
  | sharedMemoryRead t handle offset length =>
    apply Observes.map
    apply (Observes.objectWithRights t handle _).bind
    intro object
    apply (Observes.liftExcept _).bind
    intro memory
    apply Observes.get.bind
    intro s
    exact (Observes.liftExcept _).bind fun _ => .liftExcept _
  | sharedMemoryMappingLease t handle access =>
    apply Observes.map
    exact (Observes.objectWithRights t handle _).bind fun _ => .liftExcept _
  | sharedMemoryRequestLease t handle offset length rights =>
    apply Observes.map
    unfold Ipc.sharedMemoryRequestLease
    apply Observes.guard
    apply (Observes.objectWithRights t handle _).bind
    intro object
    apply (Observes.liftExcept _).bind
    intro memory
    apply Observes.get.bind
    intro s
    exact (Observes.liftExcept _).bind fun _ => .pure _
  | windowBufferLen t window | windowBufferCount t window =>
    apply Observes.map
    apply (Observes.objectWithRights t window _).bind
    intro object
    apply (Observes.liftExcept _).bind
    intro _
    exact Observes.get.bind fun _ => .pure _
  | windowManagerPending t manager =>
    apply Observes.map
    apply (Observes.windowForRole t manager _ _).bind
    intro w
    exact Observes.get.bind fun _ => .liftExcept _
  | windowManagerDisplayed t manager =>
    apply Observes.map
    apply (Observes.windowForRole t manager _ _).bind
    intro w
    exact Observes.get.bind fun _ => .pure _
  | windowManagerCopyDisplayed t manager presentation offset length =>
    apply Observes.map
    apply (Observes.windowForRole t manager _ _).bind
    intro w
    apply Observes.get.bind
    intro s
    apply Observes.guard
    apply Observes.get.bind
    intro s
    exact (Observes.liftExcept _).bind fun _ => .liftExcept _

theorem Query.simulated (q : Query n) : Simulated keeping q.run (fun _ _ => []) s := by
  apply wp_mono (q.observes s)
  · rintro value s' rfl
    exact .refl _
  · rintro fault s' ⟨herr, rfl⟩
    exact ⟨herr, .refl _⟩

end Ginkgo.Ipc
