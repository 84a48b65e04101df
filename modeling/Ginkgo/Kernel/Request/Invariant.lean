import Ginkgo.Kernel.Request.Lanes
import Ginkgo.Kernel.Request.Outbox

/-!
# The invariant of the book

Every event and every consequence of one keeps the life of each request sound, the targets
and the queue of actions in step with it, and the counters exact.
-/

namespace Ginkgo.Kernel.Request

open Ginkgo.Lib Ginkgo.Sysapi List RequestRuntime KernelRequest RequestAction

variable {O P : Type}

theorem dispatchAction_id (act : RequestAction) (r : KernelRequest O P) :
    (dispatchAction act r).id = r.id := by
  cases act <;> rfl

/-- The life of one request. -/
structure Sound (r : KernelRequest O P) : Prop where
  settled : r.state ≠ .completing
  started : Running r → r.startedAtNs.isSome = true
  owned : r.resourceState = .deviceOwned → Running r
  draining : r.resourceState = .drainPending → isTerminal r.state = true
  terminal_iff : isTerminal r.state = true ↔
    r.terminalActionQueued = true ∨ r.terminalPublicationDispatched = true
  published : r.terminalPublicationDispatched = true → r.terminalActionQueued = false
  completedAt : isTerminal r.state = true → r.completedAtNs.isSome = true
  release_iff : r.resourceState = .releasePending ∨ r.resourceState = .released ↔
    r.releaseActionQueued = true ∨ r.resourceReleaseDispatched = true
  releasing : r.releaseActionQueued = true ∨ r.resourceReleaseDispatched = true →
    isTerminal r.state = true
  dispatched : r.resourceReleaseDispatched = true → r.releaseActionQueued = false
  released : r.resourceState = .released → r.resourceReleaseDispatched = true
  ordered : r.resourceReleaseDispatched = true → r.terminalPublicationDispatched = true
  quiet : r.resourceReleaseDispatched = true → r.cancelActionQueued = false

namespace Sound

variable {r : KernelRequest O P}

theorem pending (id : RequestId) (sub : RequestSubmission O P) (now : Nat) :
    Sound (KernelRequest.pending id sub now) := by
  constructor <;> simp [KernelRequest.pending, Running, isTerminal]

variable (h : Sound r)
include h

theorem unpublished (hqueued : r.terminalActionQueued = true) :
    r.terminalPublicationDispatched = false := by
  rw [Bool.eq_false_iff]
  intro hpub
  rw [h.published hpub] at hqueued
  cases hqueued

theorem unannounced (hlive : isTerminal r.state = false) :
    r.terminalActionQueued = false ∧ r.terminalPublicationDispatched = false ∧
      r.releaseActionQueued = false ∧ r.resourceReleaseDispatched = false := by
  have hterm := h.terminal_iff
  have hreleasing := h.releasing
  rw [hlive] at hterm hreleasing
  simp only [Bool.false_eq_true, false_iff, not_or, Bool.not_eq_true, imp_false] at hterm hreleasing
  exact ⟨hterm.1, hterm.2, hreleasing.1, hreleasing.2⟩

theorem state_cases : r.state = .pending ∨ Running r ∨ isTerminal r.state = true := by
  have hsettled := h.settled
  unfold Running
  cases hst : r.state <;> simp_all [isTerminal]

theorem kernelOwned_of_pending (hst : r.state = .pending) : r.resourceState = .kernelOwned := by
  have hlive : isTerminal r.state = false := by rw [hst]; rfl
  obtain ⟨-, -, hqueued, hdisp⟩ := h.unannounced hlive
  have hrel := h.release_iff
  have howned := h.owned
  have hdraining := h.draining
  cases hresource : r.resourceState <;> simp_all [Running]

theorem amends {e : Event O P} {r' : KernelRequest O P} {actions actions' : List RequestAction}
    (ha : Amends e r actions r' actions') : Sound r' := by
  cases ha with
  | free hfree hdraining =>
    have hnone : ¬(r.releaseActionQueued = true ∨ r.resourceReleaseDispatched = true) := by
      rw [← h.release_iff]
      rintro (heq | heq) <;> rw [heq] at hdraining <;> cases hdraining
    exact { h with
      owned := nofun, draining := nofun, released := nofun, release_iff := by simpa using hnone }
  | cancelPending hst =>
    have hlive : isTerminal r.state = false := by rw [hst]; rfl
    obtain ⟨hqueued, hpub, hrel, hdisp⟩ := h.unannounced hlive
    have hstarted := h.started (.inl hst)
    have hdraining : r.resourceState ≠ .drainPending := fun heq => by
      have hterm := h.draining heq
      rw [hlive] at hterm
      cases hterm
    exact { h with
      settled := nofun, started := fun _ => hstarted, owned := fun _ => .inr rfl
      draining := fun heq => absurd heq hdraining, completedAt := nofun
      terminal_iff := by simp [isTerminal, hqueued, hpub], releasing := by simp [hrel, hdisp] }
  | queueCancel why hlive hqueued =>
    obtain ⟨-, -, -, hdisp⟩ := h.unannounced hlive
    exact { h with quiet := by simp [hdisp] }
  | removeCancel hqueued =>
    exact { h with quiet := fun _ => rfl }
  | queueRelease hterm howned hqueued =>
    have hdisp : r.resourceReleaseDispatched = false := by
      rw [Bool.eq_false_iff]
      intro hdisp
      rcases h.release_iff.mpr (.inr hdisp) with heq | heq <;> rw [heq] at howned <;> cases howned
    exact { h with
      owned := nofun, draining := nofun, released := nofun, release_iff := by simp
      releasing := fun _ => hterm, dispatched := by simp [hdisp] }

theorem finish (hlive : isTerminal r.state = false) {st : RequestState}
    (hterm : isTerminal st = true) (status : Status) (now : Nat) :
    Sound (r.finished st status now) := by
  obtain ⟨hqueued, hpub, hrel, hdisp⟩ := h.unannounced hlive
  have hnot : ¬Running (r.finished st status now) := fun hrun => by
    have hlive' : isTerminal st = false := hrun.not_terminal
    rw [hterm] at hlive'
    cases hlive'
  unfold finished concluded at *
  refine ⟨?_, fun hrun => absurd hrun hnot, fun hdev => ?_, fun _ => hterm, by simp [hterm],
    by simp [hpub], by simp, ?_, fun _ => hterm, h.dispatched, fun hreleased => ?_, by simp [hdisp],
    h.quiet⟩
  · rintro heq
    rw [show st = .completing from heq] at hterm
    cases hterm
  · split at hdev
    · cases hdev
    · exact absurd hdev (by assumption)
  · split
    · simp [hrel, hdisp]
    · exact h.release_iff
  · split at hreleased
    · cases hreleased
    · exact h.released hreleased

theorem start (hst : r.state = .pending) (now : Nat) :
    Sound { r with state := .active, startedAtNs := r.startedAtNs.or (some now) } := by
  obtain ⟨hqueued, hpub, hrel, hdisp⟩ := h.unannounced (by rw [hst]; rfl)
  have howned := h.kernelOwned_of_pending hst
  refine ⟨nofun, fun _ => by simp, ?_, ?_, ?_, ?_, nofun, ?_, ?_, ?_, ?_, ?_, h.quiet⟩ <;>
    simp [howned, hqueued, hpub, hrel, hdisp, isTerminal]

theorem requeue (hst : r.state = .active)
    (howned : r.resourceState = .kernelOwned) : Sound { r with state := .pending } := by
  obtain ⟨hqueued, hpub, hrel, hdisp⟩ := h.unannounced (by rw [hst]; rfl)
  refine ⟨nofun, by simp [Running], ?_, ?_, ?_, ?_, nofun, ?_, ?_, ?_, ?_, ?_, h.quiet⟩ <;>
    simp [howned, hqueued, hpub, hrel, hdisp, isTerminal]

theorem own (hst : Running r) : Sound { r with resourceState := .deviceOwned } := by
  obtain ⟨-, -, hrel, hdisp⟩ := h.unannounced hst.not_terminal
  exact { h with
    owned := fun _ => hst, draining := nofun, released := nofun
    release_iff := by simp [hrel, hdisp] }

theorem acknowledge (hdisp : r.resourceReleaseDispatched = true) :
    Sound { r with resourceState := .released } :=
  { h with
    owned := nofun, draining := nofun, released := fun _ => hdisp, release_iff := by simp [hdisp] }

theorem pop {act : RequestAction} {rest : List ActionKind} (hkinds : kinds r = act.kind :: rest) :
    Sound (dispatchAction act r) ∧ kinds (dispatchAction act r) = rest := by
  unfold kinds at hkinds
  cases act with
  | publishTerminal id st status doneNs =>
    obtain ⟨hcancel, hterm⟩ : r.cancelActionQueued = false ∧ r.terminalActionQueued = true := by
      grind [kind]
    refine ⟨{ h with terminal_iff := ?_, published := ?_, ordered := ?_ }, ?_⟩
    · simpa [dispatchAction] using h.terminal_iff.mpr (.inl hterm)
    · simp [dispatchAction]
    · simp [dispatchAction]
    · rw [hterm] at hkinds
      simpa [kinds, dispatchAction, hcancel, kind] using hkinds
  | cancelDevice id device why =>
    have hcancel : r.cancelActionQueued = true := by
      grind [kind]
    refine ⟨{ h with quiet := fun _ => rfl }, ?_⟩
    rw [hcancel] at hkinds
    simpa [kinds, dispatchAction, kind] using hkinds
  | releaseResources id owner resources =>
    obtain ⟨hcancel, hterm, hrel⟩ : r.cancelActionQueued = false ∧
        r.terminalActionQueued = false ∧ r.releaseActionQueued = true := by
      grind [kind]
    have hpub : r.terminalPublicationDispatched = true := by
      rcases h.terminal_iff.mp (h.releasing (.inl hrel)) with hqueued | hpub
      · rw [hterm] at hqueued
        cases hqueued
      · exact hpub
    refine ⟨{ h with
      release_iff := ?_, releasing := fun _ => h.releasing (.inl hrel), dispatched := ?_
      released := fun _ => rfl, ordered := fun _ => hpub, quiet := fun _ => hcancel }, ?_⟩
    · simpa [dispatchAction] using h.release_iff.mpr (.inl hrel)
    · simp [dispatchAction]
    · rw [hrel] at hkinds
      simpa [kinds, dispatchAction, hcancel, hterm, kind] using hkinds

end Sound

/-! ## Counters -/

def pendingCount (r : KernelRequest O P) : Nat := if r.state = .pending then 1 else 0

def activeCount (queue : TargetQueue) : Nat := if queue.active.isSome then 1 else 0

variable {id : RequestId} {actions : List RequestAction}

theorem activeCount_some {queue : TargetQueue} (h : queue.active = some id) :
    activeCount queue = 1 := by
  simp [activeCount, h]

theorem activeCount_none {queue : TargetQueue} (h : queue.active = none) :
    activeCount queue = 0 := by
  simp [activeCount, h]

structure Accounts (b : Book O P) : Prop where
  live : b.diagnostics.liveRequests = b.usage fun _ => 1
  queued : b.diagnostics.queuedRequests = b.usage pendingCount
  active : b.diagnostics.activeRequests = (b.targets.map activeCount).sum
  resources : b.diagnostics.resources = b.usage charged
  actions : b.actions.length = b.usage fun r => (kinds r).length

theorem Accounts.put {b : Book O P} {i g : Nat} {r r' : KernelRequest O P} (h : Accounts b)
    (hr : b.Holds i g r) {targets : List TargetQueue}
    {diag : RequestRuntimeDiagnostics} (hlive : diag.liveRequests = b.diagnostics.liveRequests)
    (hqueued : diag.queuedRequests + pendingCount r =
      b.diagnostics.queuedRequests + pendingCount r')
    (hact : diag.activeRequests = (targets.map activeCount).sum)
    (hrsrc : diag.resources + charged r = b.diagnostics.resources + charged r')
    (hacts : actions.length + (kinds r).length = b.actions.length + (kinds r').length) :
    Accounts { b.put i g r' with
      targets := targets
      actions := actions
      diagnostics := diag } := by
  refine ⟨?_, ?_, hact, ?_, ?_⟩
  · have hone := usage_put (fun _ => 1) hr r'
    rw [← h.live, ← hlive] at hone
    exact (add_right_cancel hone).symm
  · have hcnt := usage_put pendingCount hr r'
    rw [← h.queued, ← hqueued] at hcnt
    exact (add_right_cancel hcnt).symm
  · have hcharged := usage_put charged hr r'
    rw [← h.resources, ← hrsrc] at hcharged
    exact (add_right_cancel hcharged).symm
  · have hlen := usage_put (fun r => (kinds r).length) hr r'
    rw [← h.actions, ← hacts] at hlen
    exact (add_right_cancel hlen).symm

theorem Amends.charged_eq {e : Event O P} {r r' : KernelRequest O P}
    {actions actions' : List RequestAction} (ha : Amends e r actions r' actions') :
    charged r' = charged r := by
  cases ha with
  | free hfree hdraining =>
    unfold charged
    cases hst : r.resourceState <;> simp_all [RequestResourceState.isDraining]
  | queueRelease hterm howned hqueued => simp [charged, howned]
  | cancelPending hst | queueCancel why hlive hqueued | removeCancel hqueued => rfl

theorem KernelRequest.charged_finished (r : KernelRequest O P) (st : RequestState)
    (status : Status) (now : Nat) : charged (r.finished st status now) = charged r := by
  unfold charged finished concluded
  cases hresource : r.resourceState <;> simp

/-- What holds of the book at every moment. -/
structure Inv (b : Book O P) : Prop where
  slots : Slots b.limits b.slots
  width : b.targets.length = b.limits.systemCapacity
  sound : ∀ r, b.Live r → Sound r
  lanes : Lanes b.Live b.targets
  outbox : Outbox b.Live b.actions
  accounts : Accounts b

namespace Inv

variable {b b' : Book O P} {i g j : Nat} {r r' : KernelRequest O P} {queue : TargetQueue}
  {e : Event O P}

variable (h : Inv b)
include h

theorem unique : ∀ x y, b.Live x → b.Live y → x.id = y.id → x = y :=
  fun _ _ hx hy hid => h.slots.live_unique hx hy hid

section

variable (hr : b.Holds i g r)
include hr

theorem replaced (hid : r'.id = r.id) : Replaced b.Live (b.put i g r').Live r r' :=
  ⟨⟨i, g, hr⟩, hid, h.unique, h.slots.live_put hr (hid.trans (h.slots.id_eq hr))⟩

theorem put (hs : Replaced b.Live (b.put i g r').Live r r') (hsound : Sound r')
    {targets : List TargetQueue} {diag : RequestRuntimeDiagnostics}
    (hwidth : targets.length = b.targets.length) (hlanes : Lanes (b.put i g r').Live targets)
    (houtbox : Outbox (b.put i g r').Live actions)
    (haccounts : Accounts { b.put i g r' with
      targets := targets
      actions := actions
      diagnostics := diag }) :
    Inv { b.put i g r' with
      targets := targets
      actions := actions
      diagnostics := diag } where
  slots := h.slots.put hr (hs.id_eq.trans (h.slots.id_eq hr))
  width := hwidth.trans h.width
  sound x hx := by
    rcases (hs.iff x).mp hx with rfl | ⟨hx, -⟩
    · exact hsound
    · exact h.sound x hx
  lanes := hlanes
  outbox := houtbox
  accounts := haccounts

theorem amend (ha : Amends e r b.actions r' actions) :
    Inv { b.put i g r' with actions := actions } := by
  have hs := h.replaced hr (show r'.id = r.id by cases ha <;> rfl)
  have hsound := h.sound r hs.was
  have hpend : r'.state = .pending ↔ r.state = .pending := by
    cases ha with
    | cancelPending hst => simp [hst]
    | free hfree hdraining | queueCancel why hlive hqueued | removeCancel hqueued
    | queueRelease hterm howned hqueued =>
      rfl
  refine h.put hr hs (hsound.amends ha) rfl
    (h.lanes.amend hs (by cases ha <;> rfl) hpend ?_ ?_) ?_ ?_
  · intro hrun
    cases ha with
    | cancelPending hst => exact .inl hst
    | free hfree hdraining | queueCancel why hlive hqueued | removeCancel hqueued
    | queueRelease hterm howned hqueued =>
      exact hrun
  · cases ha <;> exact id
  · cases ha with
    | free hfree hdraining =>
      exact h.outbox.amend hs (fun act hdesc => by cases act <;> exact hdesc) rfl
    | cancelPending hst =>
      refine h.outbox.amend hs (fun act hdesc => ?_) rfl
      exact hdesc.ongoing (by rw [hst]; rfl) rfl rfl rfl rfl
    | queueCancel why hnonterminal hqueued =>
      obtain ⟨hterm, -, hrel, -⟩ := hsound.unannounced hnonterminal
      refine h.outbox.push hs (fun act hdesc => ?_) ?_ ⟨rfl, rfl⟩
      · cases act <;> exact hdesc
      · simp [kinds, hqueued, hterm, hrel, kind]
    | removeCancel hqueued =>
      refine h.outbox.removeCancel hs (fun act hdesc => ?_) ?_
      · cases act <;> exact hdesc
      · grind [kinds]
    | queueRelease hterm howned hqueued =>
      refine h.outbox.push hs (fun act hdesc => ?_) ?_ ⟨rfl, rfl, rfl⟩
      · cases act <;> exact hdesc
      · simp [kinds, hqueued, kind]
  · refine h.accounts.put hr rfl ?_ h.accounts.active ?_ ?_
    · simp only [pendingCount, hpend]
      rfl
    · rw [ha.charged_eq]
      rfl
    · cases ha with
      | free hfree hdraining | cancelPending hst => rfl
      | queueCancel why hnonterminal hqueued | queueRelease hterm howned hqueued =>
        simp [kinds, hqueued]; omega
      | removeCancel hqueued =>
        have hlen := h.outbox.length_removeCancel hs.was hqueued
        simp [kinds, hqueued]; omega

theorem finish (hlive : isTerminal r.state = false)
    {st : RequestState} (hterm : isTerminal st = true) (status : Status) (now : Nat) :
    Inv { b.put i g (r.finished st status now) with
      targets := b.targets.map (TargetQueue.remove r.id)
      actions := b.actions ++ [.publishTerminal r.id st status now]
      diagnostics := { b.diagnostics with
        queuedRequests := b.diagnostics.queuedRequests -
          if r.state = .pending then 1 else 0 } } := by
  have hs := h.replaced hr (show (r.finished st status now).id = r.id from rfl)
  have hsound := h.sound r hs.was
  obtain ⟨hqueued, hpub, hrel, hdisp⟩ := hsound.unannounced hlive
  refine h.put hr hs (hsound.finish hlive hterm _ _) (length_map _)
    (h.lanes.finish hs rfl hterm rfl) ?_ ?_
  · refine h.outbox.push hs (fun act hdesc => ?_) ?_ ⟨rfl, hterm, rfl, rfl, rfl⟩
    · exact hdesc.ongoing hlive rfl rfl rfl rfl
    · simp [kinds, finished, concluded, hqueued, hrel, kind]
  · have hnot : pendingCount (r.finished st status now) = 0 := by
      unfold pendingCount
      rw [if_neg]
      rintro heq
      rw [show st = .pending from heq] at hterm
      cases hterm
    have hle := le_usage (f := pendingCount) hr
    rw [← h.accounts.queued] at hle
    refine h.accounts.put hr rfl ?_ ?_ ?_ ?_
    · rw [hnot]
      change b.diagnostics.queuedRequests - pendingCount r + pendingCount r = _
      omega
    · rw [map_map]
      exact h.accounts.active
    · rw [charged_finished]
    · simp [kinds, finished, concluded, hqueued]
      omega

theorem vacate (hterm : isTerminal r.state = true)
    (hq : b.targets[j]? = some queue) (hact : queue.active = some r.id) :
    Inv { b with
      targets := b.targets.set j { queue with active := none }
      diagnostics := { b.diagnostics with
        activeRequests := b.diagnostics.activeRequests - 1 } } := by
  refine { h with
    width := length_set.trans h.width, lanes := h.lanes.vacate ⟨i, g, hr⟩ h.unique hterm hq hact
    accounts := { h.accounts with active := ?_ } }
  have hsum := sum_map_set hq activeCount { queue with active := none }
  rw [activeCount_some hact, ← h.accounts.active] at hsum
  exact (Nat.eq_sub_of_add_eq hsum).symm

end

theorem release (hq : b.targets[j]? = some queue) (hidle : queue.isIdle = true) :
    Inv { b with targets := b.targets.set j { queue with target := none } } := by
  refine { h with
    width := length_set.trans h.width, lanes := h.lanes.release hq hidle
    accounts := { h.accounts with active := ?_ } }
  have hsum := sum_map_set hq activeCount { queue with target := none }
  exact h.accounts.active.trans (add_right_cancel hsum).symm

theorem retire (hr : b.Holds i g r) (hretirable : retirable r = true)
    (hidle : ∀ queue ∈ b.targets, queue.active ≠ some r.id) :
    Inv { b with
      slots := b.slots.set i (.vacated g)
      diagnostics := { b.diagnostics with
        liveRequests := b.diagnostics.liveRequests - 1 } } := by
  have hlive : b.Live r := ⟨i, g, hr⟩
  simp only [retirable, Bool.and_eq_true, Bool.not_eq_true', decide_eq_true_eq] at hretirable
  obtain ⟨⟨⟨⟨⟨hterm, -⟩, hreleased⟩, hcancel⟩, hpublish⟩, hrel⟩ := hretirable
  have hkinds : kinds r = [] := by simp [kinds, hcancel, hpublish, hrel]
  have hclear := h.slots.live_clear hr (vacated_request g)
    { b.diagnostics with liveRequests := b.diagnostics.liveRequests - 1 }
  refine ⟨h.slots.vacated hr, h.width, fun x hx => h.sound x ((hclear x).mp hx).1,
    h.lanes.retire hlive hclear h.unique hterm hidle, h.outbox.clear hlive hclear hkinds, ?_⟩
  have hpend : pendingCount r = 0 := by
    unfold pendingCount
    rw [if_neg]
    intro heq
    rw [heq] at hterm
    cases hterm
  have hvacated : ∀ {M : Type} [AddCommMonoid M] (f : KernelRequest O P → M), Book.usage f { b with
        slots := b.slots.set i (.vacated g)
        diagnostics := { b.diagnostics with
          liveRequests := b.diagnostics.liveRequests - 1 } } + f r = b.usage f :=
    fun f => usage_vacated f hr _
  refine ⟨?_, ?_, h.accounts.active, ?_, ?_⟩
  · have hone := hvacated fun _ => 1
    have hcnt := h.accounts.live
    change b.diagnostics.liveRequests - 1 = _
    omega
  · have hcnt := hvacated pendingCount
    rw [hpend] at hcnt
    exact h.accounts.queued.trans hcnt.symm
  · have hcharged := hvacated charged
    rw [show charged r = 0 by simp [charged, hreleased]; rfl] at hcharged
    exact h.accounts.resources.trans hcharged.symm
  · have hlen := hvacated fun r => (kinds r).length
    rw [hkinds] at hlen
    exact h.accounts.actions.trans hlen.symm

theorem silent (hs : Silent e b b') : Inv b' := by
  cases hs with
  | amend hr ha => exact h.amend hr ha
  | finish st status now hr hlive hterm => exact h.finish hr hlive hterm status now
  | vacate hr hterm hq hact => exact h.vacate hr hterm hq hact
  | release hq hidle => exact h.release hq hidle
  | retire hr hretirable hidle => exact h.retire hr hretirable hidle

/-! ## Events -/

theorem submit {sub : RequestSubmission O P} (hv : Visible b (.submitted id sub) b') : Inv b' := by
  cases hv with
  | observe he => cases he
  | @submit i g j queue _ now hslot hq hname =>
    have hid : (pending (.fromParts i g) sub now).id = .fromParts i g := rfl
    have hput := h.slots.live_put hslot hid
    have hfresh : ∀ x, b.Live x → x.id ≠ (pending (.fromParts i g) sub now).id := by
      intro x hx heq
      have hsome := h.slots.holds_of_id hx hslot heq
      cases hsome
    refine ⟨h.slots.put hslot hid, length_set.trans h.width, fun x hx => ?_,
      h.lanes.submit hput hfresh rfl hq hname, h.outbox.fill hput hfresh rfl, ?_⟩
    · rcases (hput x).mp hx with rfl | ⟨hx, -⟩
      · exact Sound.pending _ _ _
      · exact h.sound x hx
    · have hfill : ∀ {M : Type} [AddCommMonoid M] (f : KernelRequest O P → M), _ :=
        fun f => usage_fill f hslot (.pending (.fromParts i g) sub now)
      refine ⟨?_, ?_, ?_, ?_, ?_⟩
      · exact (congrArg (· + 1) h.accounts.live).trans (hfill fun _ => 1).symm
      · exact (congrArg (· + 1) h.accounts.queued).trans (hfill pendingCount).symm
      · have hsum := sum_map_set hq activeCount { queue with
          target := some sub.target
          queued := queue.queued ++ [.fromParts i g] }
        exact h.accounts.active.trans (add_right_cancel hsum).symm
      · exact (congrArg (· + sub.resources) h.accounts.resources).trans (hfill charged).symm
      · exact h.accounts.actions.trans (hfill fun r => (kinds r).length).symm

theorem dispatch (hv : Visible b (.dispatched id) b') : Inv b' := by
  cases hv with
  | observe he => cases he
  | @dispatch i g j r queue rest now hr hst hq hact hqueued =>
    have hs : Replaced _ _ r { r with
        state := .active
        startedAtNs := r.startedAtNs.or (some now) } := h.replaced hr rfl
    refine h.put hr hs ((h.sound r hs.was).start hst now) length_set
      (h.lanes.dispatch hs rfl rfl (by simp) hq hact hqueued) ?_ ?_
    · refine h.outbox.amend hs (fun act hdesc => ?_) rfl
      exact hdesc.ongoing (by rw [hst]; rfl) rfl rfl rfl rfl
    have hone : pendingCount r = 1 := by simp [pendingCount, hst]
    have hle := le_usage (f := pendingCount) hr
    rw [hone, ← h.accounts.queued] at hle
    have hsum := sum_map_set hq activeCount { queue with active := some r.id, queued := rest }
    rw [activeCount_none hact, ← h.accounts.active] at hsum
    refine h.accounts.put hr rfl ?_ hsum.symm rfl rfl
    rw [hone]
    exact Nat.sub_add_cancel hle

theorem requeue (hv : Visible b (.requeued id) b') : Inv b' := by
  cases hv with
  | observe he => cases he
  | @requeue i g j r queue hr hst howned hq hact =>
    have hs : Replaced _ _ r { r with state := .pending } := h.replaced hr rfl
    refine h.put hr hs ((h.sound r hs.was).requeue hst howned) length_set
      (h.lanes.requeue hs rfl rfl hq hact) ?_ ?_
    · refine h.outbox.amend hs (fun act hdesc => ?_) rfl
      exact hdesc.ongoing (by rw [hst]; rfl) rfl rfl rfl rfl
    have hsum := sum_map_set hq activeCount
      { queue with active := none, queued := queue.queued ++ [r.id] }
    rw [activeCount_some hact, ← h.accounts.active] at hsum
    refine h.accounts.put hr rfl ?_ (Nat.eq_sub_of_add_eq hsum).symm rfl rfl
    simp [pendingCount, hst]

theorem acknowledge (hv : Visible b (.released id) b') : Inv b' := by
  cases hv with
  | observe he => cases he
  | @acknowledge i g r hr hdisp howed =>
    have hs : Replaced _ _ r { r with resourceState := .released } := h.replaced hr rfl
    refine h.put hr hs ((h.sound r hs.was).acknowledge hdisp) rfl
      (h.lanes.amend hs rfl Iff.rfl id id) (h.outbox.amend hs (fun act hdesc => ?_) rfl)
      (h.accounts.put hr rfl rfl h.accounts.active ?_ rfl)
    · cases act <;> exact hdesc
    have hsum := usage_put charged hr { r with resourceState := .released }
    have hcharged : charged r = r.resources := by
      simp [charged, howed]
    have hzero : charged { r with resourceState := .released } = 0 := rfl
    rw [hcharged, hzero, add_zero, ← h.accounts.resources] at hsum
    rw [hcharged, hzero, ← hsum]
    ext <;> simp [RequestResources.saturatingSub]

section

variable (hr : b.Holds i g r)
include hr

theorem own (hst : Running r) (howned : r.resourceState = .kernelOwned) :
    Inv (b.put i g { r with resourceState := .deviceOwned }) := by
  have hs : Replaced _ _ r { r with resourceState := .deviceOwned } := h.replaced hr rfl
  refine h.put hr hs ((h.sound r hs.was).own hst) rfl (h.lanes.amend hs rfl Iff.rfl id id)
    (h.outbox.amend hs (fun act hdesc => ?_) rfl)
    (h.accounts.put hr rfl rfl h.accounts.active ?_ rfl)
  · cases act <;> exact hdesc
  · simp [charged, howned]

theorem pop {act : RequestAction} {rest : List RequestAction}
    (hacts : b.actions = act :: rest) (haction : act.id = r.id) :
    Inv { b.put i g (dispatchAction act r) with actions := rest } := by
  have hs := h.replaced hr (dispatchAction_id act r)
  have houtbox := h.outbox
  rw [hacts] at houtbox
  have howed := houtbox.owed r hs.was
  rw [filter_cons_of_pos (by simpa using haction), map_cons] at howed
  obtain ⟨hsound, hkinds⟩ := (h.sound r hs.was).pop howed.symm
  refine h.put hr hs hsound rfl (h.lanes.amend hs ?_ ?_ ?_ ?_)
    (houtbox.pop hs (fun other hdesc => ?_) haction ?_)
    (h.accounts.put hr rfl ?_ h.accounts.active ?_ ?_)
  · cases act <;> rfl
  · cases act <;> rfl
  · cases act <;> exact id
  · cases act <;> exact id
  · cases act <;> cases other <;> exact hdesc
  · rw [hkinds]
    exact howed.symm
  · cases act <;> rfl
  · cases act <;> rfl
  · rw [hkinds, ← howed, hacts, length_cons, length_cons]
    omega

end

theorem visible (hv : Visible b e b') : Inv b' := by
  have hstep := hv
  cases hv with
  | submit => exact h.submit hstep
  | dispatch => exact h.dispatch hstep
  | requeue => exact h.requeue hstep
  | own hr hst howned => exact h.own hr hst howned
  | pop hr hacts hid => exact h.pop hr hacts hid
  | acknowledge => exact h.acknowledge hstep
  | observe => exact h

theorem silents (hs : Relation.ReflTransGen (Silent e) b b') : Inv b' := by
  induction hs with
  | refl => exact h
  | tail _ hlast ih => exact ih.silent hlast

theorem step {events : List (Event O P)} (hs : b.Step events b') : Inv b' := by
  obtain ⟨hvis, hsilent⟩ := hs
  exact (h.visible hvis).silents hsilent

theorem usage_le {f : KernelRequest O P → Nat} (hf : ∀ r, f r ≤ 1) : b.usage f < u32Max := by
  have hsum : b.usage f ≤ b.slots.length := by
    refine (sum_le_card_nsmul _ 1 fun x hx => ?_).trans_eq (by simp)
    obtain ⟨slot, -, rfl⟩ := mem_map.mp hx
    cases slot.request with
    | none => exact Nat.zero_le 1
    | some r => exact hf r
  have hlen := h.slots.length
  have hcap := h.slots.capacity
  omega

theorem live_lt : b.diagnostics.liveRequests < u32Max := by
  rw [h.accounts.live]
  exact h.usage_le fun _ => Nat.le_refl 1

theorem queued_lt : b.diagnostics.queuedRequests < u32Max := by
  rw [h.accounts.queued]
  refine h.usage_le fun r => ?_
  unfold pendingCount
  split <;> omega

theorem active_lt : b.diagnostics.activeRequests < u32Max := by
  rw [h.accounts.active]
  have hsum : (b.targets.map activeCount).sum ≤ b.targets.length := by
    refine (sum_le_card_nsmul _ 1 fun x hx => ?_).trans_eq (by simp)
    obtain ⟨queue, -, rfl⟩ := mem_map.mp hx
    unfold activeCount
    split <;> omega
  have hwidth := h.width
  have hcap := h.slots.capacity
  omega

end Inv

end Ginkgo.Kernel.Request
