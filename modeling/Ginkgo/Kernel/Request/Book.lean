import Ginkgo.Kernel.Request

/-!
# The book of requests

What the runtime keeps of requests, without the deadline heap, the cursor and the recorded
completions.  An event changes the book in one visible way and then has any number of
silent consequences; these are small edits of one request, one target or one slot.
-/

namespace Ginkgo.Kernel.Request

open Ginkgo.Lib Ginkgo.Sysapi

/-! ## Resources add up -/

namespace RequestResources

instance : Zero RequestResources := ⟨{}⟩

instance : Add RequestResources :=
  ⟨fun a b => ⟨a.copiedBytes + b.copiedBytes, a.pinnedPages + b.pinnedPages,
    a.sharedBytes + b.sharedBytes⟩⟩

instance : PartialOrder RequestResources where
  le a b := a.copiedBytes ≤ b.copiedBytes ∧ a.pinnedPages ≤ b.pinnedPages ∧
    a.sharedBytes ≤ b.sharedBytes
  le_refl a := ⟨le_rfl, le_rfl, le_rfl⟩
  le_trans a b c h h' :=
    ⟨h.1.trans h'.1, h.2.1.trans h'.2.1, h.2.2.trans h'.2.2⟩
  le_antisymm a b h h' := by
    ext
    · exact Nat.le_antisymm h.1 h'.1
    · exact Nat.le_antisymm h.2.1 h'.2.1
    · exact Nat.le_antisymm h.2.2 h'.2.2

instance (a b : RequestResources) : Decidable (a ≤ b) :=
  inferInstanceAs (Decidable (_ ∧ _ ∧ _))

@[simp] theorem add_copiedBytes (a b : RequestResources) :
    (a + b).copiedBytes = a.copiedBytes + b.copiedBytes := rfl

@[simp] theorem add_pinnedPages (a b : RequestResources) :
    (a + b).pinnedPages = a.pinnedPages + b.pinnedPages := rfl

@[simp] theorem add_sharedBytes (a b : RequestResources) :
    (a + b).sharedBytes = a.sharedBytes + b.sharedBytes := rfl

instance : AddCancelCommMonoid RequestResources where
  add_assoc a b c := by ext <;> simp [Nat.add_assoc]
  zero_add a := by ext <;> exact Nat.zero_add _
  add_zero a := by ext <;> exact Nat.add_zero _
  add_comm a b := by ext <;> simp [Nat.add_comm]
  add_left_cancel a b c h := by
    have hcopied := congrArg copiedBytes h
    have hpinned := congrArg pinnedPages h
    have hshared := congrArg sharedBytes h
    simp only [add_copiedBytes, add_pinnedPages, add_sharedBytes] at hcopied hpinned hshared
    ext <;> omega
  nsmul := nsmulRec

end RequestResources

variable {O P : Type}

inductive Event (O P : Type)
  | submitted (id : RequestId) (submission : RequestSubmission O P)
  /-- The runtime was asked for a request to start. -/
  | polled
  | dispatched (id : RequestId)
  | requeued (id : RequestId)
  /-- The device may reach the resources from now on. -/
  | owned (id : RequestId)
  /-- The worker applied a recorded completion. -/
  | completed (completion : DeferredCompletion)
  /-- The worker took a due deadline. -/
  | expired
  | canceled (id : RequestId)
  | cancelAcknowledged (id : RequestId) (deviceStopped : Bool)
  | drained (id : RequestId)
  /-- A thread or a process ended. -/
  | terminated
  /-- A device was removed or reset. -/
  | deviceFailed (device : RequestDevice) (ownershipStopped : Bool)
  | shutdown
  | action (action : RequestAction)
  | released (id : RequestId)
  deriving DecidableEq

/-- The event alone changes nothing in the book. -/
def Event.IsPassive : Event O P → Prop
  | .polled | .completed _ | .expired | .canceled _ | .cancelAcknowledged _ _ | .drained _
  | .terminated | .deviceFailed _ _ | .shutdown => True
  | _ => False

/-- The event proves that no device reaches the resources of the request any more. -/
def Frees : Event O P → KernelRequest O P → Prop
  | .completed completion, r => completion.id = r.id ∧ completion.deviceReleased = true
  | .cancelAcknowledged id deviceStopped, r => id = r.id ∧ deviceStopped = true
  | .drained id, r => id = r.id
  | .deviceFailed device ownershipStopped, r =>
    r.device = some device ∧ ownershipStopped = true
  | _, _ => False

/-! ## The book -/

/-- A request without its place in the deadline heap and the notes of the cancellation
protocol. -/
def KernelRequest.erase (r : KernelRequest O P) : KernelRequest O P :=
  { r with
    deadlineHeapIndex := none
    cancellationRequested := false
    cancellationAcknowledged := false }

def RequestSlot.erase (slot : RequestSlot O P) : RequestSlot O P :=
  { slot with request := slot.request.map KernelRequest.erase }

structure Book (O P : Type) where
  limits : RequestLimits
  slots : List (RequestSlot O P)
  targets : List TargetQueue
  actions : List RequestAction
  diagnostics : RequestRuntimeDiagnostics

def RequestRuntime.book (s : RequestRuntime O P) : Book O P where
  limits := s.limits
  slots := s.slots.map RequestSlot.erase
  targets := s.targets
  actions := s.actions
  diagnostics := s.diagnostics

namespace Book

def Holds (b : Book O P) (i g : Nat) (r : KernelRequest O P) : Prop :=
  b.slots[i]? = some ⟨g, false, some r⟩

def Live (b : Book O P) (r : KernelRequest O P) : Prop := ∃ i g, b.Holds i g r

def put (i g : Nat) (r : KernelRequest O P) (b : Book O P) : Book O P :=
  { b with slots := b.slots.set i ⟨g, false, some r⟩ }

/-- What the requests in the table add up to. -/
def usage {M : Type} [AddCommMonoid M] (f : KernelRequest O P → M) (b : Book O P) : M :=
  (b.slots.map fun slot => (slot.request.map f).getD 0).sum

end Book

/-- The request once it has ended and announced it. -/
def KernelRequest.finished (state : RequestState) (status : Status) (nowNs : Nat)
    (r : KernelRequest O P) : KernelRequest O P :=
  { r.concluded state status nowNs with terminalActionQueued := true }

def TargetQueue.remove (id : RequestId) (queue : TargetQueue) : TargetQueue :=
  { queue with queued := queue.queued.filter fun other => other ≠ id }

/-- The slot of generation `g` after its request was retired. -/
def RequestSlot.vacated (g : Nat) : RequestSlot O P :=
  if g + 1 ≤ u32Max then ⟨g + 1, false, none⟩ else ⟨g, true, none⟩

/-- Edits of one request that leave the targets alone. -/
inductive Amends (e : Event O P) (r : KernelRequest O P) (actions : List RequestAction) :
    KernelRequest O P → List RequestAction → Prop
  | free (hfree : Frees e r) (hdraining : r.resourceState.isDraining = true) :
      Amends e r actions { r with resourceState := .kernelOwned } actions
  | cancelPending (hstate : r.state = .active) :
      Amends e r actions { r with state := .cancelPending } actions
  | queueCancel (reason : RequestCancelReason) (hlive : isTerminal r.state = false)
      (hqueued : r.cancelActionQueued = false) :
      Amends e r actions { r with cancelActionQueued := true }
        (actions ++ [.cancelDevice r.id r.device reason])
  | removeCancel (hqueued : r.cancelActionQueued = true) :
      Amends e r actions { r with cancelActionQueued := false }
        (actions.filter fun action => !RequestRuntime.isCancelOf r.id action)
  | queueRelease (hterminal : isTerminal r.state = true) (howned : r.resourceState = .kernelOwned)
      (hqueued : r.releaseActionQueued = false) :
      Amends e r actions { r with resourceState := .releasePending, releaseActionQueued := true }
        (actions ++ [.releaseResources r.id r.owner r.resources])

/-- A consequence of an event. -/
inductive Silent (e : Event O P) (b : Book O P) : Book O P → Prop
  | amend {i g : Nat} {r r' : KernelRequest O P} {actions : List RequestAction}
      (hr : b.Holds i g r) (h : Amends e r b.actions r' actions) :
      Silent e b { b.put i g r' with actions := actions }
  | finish {i g : Nat} {r : KernelRequest O P} (state : RequestState) (status : Status)
      (nowNs : Nat) (hr : b.Holds i g r) (hlive : isTerminal r.state = false)
      (hterminal : isTerminal state = true) :
      Silent e b { b.put i g (r.finished state status nowNs) with
        targets := b.targets.map (TargetQueue.remove r.id)
        actions := b.actions ++ [.publishTerminal r.id state status nowNs]
        diagnostics := { b.diagnostics with
          queuedRequests := b.diagnostics.queuedRequests - if r.state = .pending then 1 else 0 } }
  | vacate {i g j : Nat} {r : KernelRequest O P} {queue : TargetQueue} (hr : b.Holds i g r)
      (hterminal : isTerminal r.state = true) (hqueue : b.targets[j]? = some queue)
      (hactive : queue.active = some r.id) :
      Silent e b { b with
        targets := b.targets.set j { queue with active := none }
        diagnostics := { b.diagnostics with
          activeRequests := b.diagnostics.activeRequests - 1 } }
  | release {j : Nat} {queue : TargetQueue} (hqueue : b.targets[j]? = some queue)
      (hidle : queue.isIdle = true) :
      Silent e b { b with targets := b.targets.set j { queue with target := none } }
  | retire {i g : Nat} {r : KernelRequest O P} (hr : b.Holds i g r)
      (hretirable : RequestRuntime.retirable r = true)
      (hidle : ∀ queue ∈ b.targets, queue.active ≠ some r.id) :
      Silent e b { b with
        slots := b.slots.set i (.vacated g)
        diagnostics := { b.diagnostics with liveRequests := b.diagnostics.liveRequests - 1 } }

/-- What the event itself does. -/
inductive Visible (b : Book O P) : Event O P → Book O P → Prop
  | submit {i g j : Nat} {queue : TargetQueue} (submission : RequestSubmission O P)
      (nowNs : Nat) (hslot : b.slots[i]? = some ⟨g, false, none⟩)
      (hqueue : b.targets[j]? = some queue)
      (hname : queue.target = some submission.target ∨
        queue.target = none ∧ ∀ other ∈ b.targets, other.target ≠ some submission.target) :
      Visible b (.submitted (.fromParts i g) submission)
        { b.put i g (.pending (.fromParts i g) submission nowNs) with
          targets := b.targets.set j { queue with
            target := some submission.target
            queued := queue.queued ++ [.fromParts i g] }
          diagnostics := { b.diagnostics with
            liveRequests := b.diagnostics.liveRequests + 1
            queuedRequests := b.diagnostics.queuedRequests + 1
            resources := b.diagnostics.resources + submission.resources } }
  | dispatch {i g j : Nat} {r : KernelRequest O P} {queue : TargetQueue} {rest : List RequestId}
      (nowNs : Nat) (hr : b.Holds i g r) (hstate : r.state = .pending)
      (hqueue : b.targets[j]? = some queue) (hactive : queue.active = none)
      (hqueued : queue.queued = r.id :: rest) :
      Visible b (.dispatched r.id) { b.put i g { r with
            state := .active
            startedAtNs := r.startedAtNs.or (some nowNs) } with
          targets := b.targets.set j { queue with active := some r.id, queued := rest }
          diagnostics := { b.diagnostics with
            queuedRequests := b.diagnostics.queuedRequests - 1
            activeRequests := b.diagnostics.activeRequests + 1 } }
  | requeue {i g j : Nat} {r : KernelRequest O P} {queue : TargetQueue} (hr : b.Holds i g r)
      (hstate : r.state = .active) (howned : r.resourceState = .kernelOwned)
      (hqueue : b.targets[j]? = some queue) (hactive : queue.active = some r.id) :
      Visible b (.requeued r.id) { b.put i g { r with state := .pending } with
          targets := b.targets.set j { queue with
            active := none
            queued := queue.queued ++ [r.id] }
          diagnostics := { b.diagnostics with
            activeRequests := b.diagnostics.activeRequests - 1
            queuedRequests := b.diagnostics.queuedRequests + 1 } }
  | own {i g : Nat} {r : KernelRequest O P} (hr : b.Holds i g r)
      (hstate : r.state = .active ∨ r.state = .cancelPending)
      (howned : r.resourceState = .kernelOwned) :
      Visible b (.owned r.id) (b.put i g { r with resourceState := .deviceOwned })
  | pop {i g : Nat} {r : KernelRequest O P} {action : RequestAction} {rest : List RequestAction}
      (hr : b.Holds i g r) (hactions : b.actions = action :: rest) (hid : action.id = r.id) :
      Visible b (.action action)
        { b.put i g (RequestRuntime.dispatchAction action r) with actions := rest }
  | acknowledge {i g : Nat} {r : KernelRequest O P} (hr : b.Holds i g r)
      (hdispatched : r.resourceReleaseDispatched = true)
      (howed : r.resourceState ≠ .released) :
      Visible b (.released r.id) { b.put i g { r with resourceState := .released } with
          diagnostics := { b.diagnostics with
            resources := b.diagnostics.resources.saturatingSub r.resources } }
  | observe {e : Event O P} (he : e.IsPassive) : Visible b e b

/-- One event, with its consequences. -/
inductive Book.Step (b : Book O P) : List (Event O P) → Book O P → Prop
  | intro {e : Event O P} {b' b'' : Book O P} (hvisible : Visible b e b')
      (hsilent : Relation.ReflTransGen (Silent e) b' b'') : Step b [e] b''

/-!
## The slots of the book

A live request is named by its slot, so replacing the request of a slot changes what is
live at that one name.
-/

open Option RequestSlot RequestId

theorem RequestId.fromParts_inj {i i' g g' : Nat} (hi : i < u32Max) (hi' : i' < u32Max)
    (h : RequestId.fromParts i g = RequestId.fromParts i' g') : i = i' ∧ g = g' := by
  exact packTag_inj hi hi' (congrArg raw h)

theorem RequestId.fromParts_spec {i g : Nat} (hi : i < u32Max) (hg : 1 ≤ g) :
    (RequestId.fromParts i g).isValid = true ∧ (RequestId.fromParts i g).index = some i ∧
      (RequestId.fromParts i g).generation = g := by
  have hencoded : (fromParts i g).encodedIndex = i + 1 := packTag_and_tagMask g hi
  have hgen : (fromParts i g).generation = g := packTag_shiftRight g hi
  have hraw : (fromParts i g).raw ≠ 0 := packTag_ne_zero i g
  refine ⟨?_, ?_, hgen⟩
  · unfold isValid
    rw [hencoded, hgen]
    simp [hraw, Nat.one_le_iff_ne_zero.mp hg]
  · unfold index
    rw [hencoded]
    simp

structure Slots (limits : RequestLimits) (slots : List (RequestSlot O P)) : Prop where
  length : slots.length = limits.systemCapacity
  capacity : limits.systemCapacity < u32Max
  generation : ∀ (i : Nat) (slot : RequestSlot O P), slots[i]? = some slot →
    1 ≤ slot.generation ∧ slot.generation ≤ u32Max
  named : ∀ (i : Nat) (slot : RequestSlot O P) (r : KernelRequest O P), slots[i]? = some slot →
    slot.request = some r → slot.retired = false ∧ r.id = .fromParts i slot.generation

/-- In the place of a request there is now another of the same name. -/
structure Replaced (live live' : KernelRequest O P → Prop) (r r' : KernelRequest O P) : Prop where
  was : live r
  id_eq : r'.id = r.id
  unique : ∀ x y, live x → live y → x.id = y.id → x = y
  iff : ∀ x, live' x ↔ x = r' ∨ live x ∧ x.id ≠ r'.id

namespace Replaced

variable {live live' : KernelRequest O P → Prop} {r r' x : KernelRequest O P}
  (h : Replaced live live' r r')
include h

theorem new : live' r' := (h.iff r').mpr (.inl rfl)

theorem eq_of_id (hx : live x) (hid : x.id = r.id) : x = r := h.unique x r hx h.was hid

theorem kept (hx : live x) : x = r ∨ live' x ∧ x.id ≠ r.id := by
  by_cases heq : x.id = r.id
  · exact .inl (h.eq_of_id hx heq)
  · exact .inr ⟨(h.iff x).mpr (.inr ⟨hx, h.id_eq ▸ heq⟩), heq⟩

end Replaced

namespace Slots

variable {b : Book O P} {i g : Nat} {r r' : KernelRequest O P} {slot : RequestSlot O P}

variable (h : Slots b.limits b.slots)
include h

theorem index_lt (hslot : b.slots[i]? = some slot) : i < u32Max := by
  have hlt := lt_length hslot
  have hlen := h.length
  have hcap := h.capacity
  omega

theorem id_eq (hr : b.Holds i g r) : r.id = .fromParts i g :=
  (h.named i _ r hr rfl).2

theorem holds_of_id (hr : b.Live r) (hslot : b.slots[i]? = some slot)
    (hid : r.id = .fromParts i slot.generation) : slot = ⟨slot.generation, false, some r⟩ := by
  obtain ⟨j, g, hj⟩ := hr
  rw [h.id_eq hj] at hid
  obtain ⟨rfl, -⟩ := fromParts_inj (h.index_lt hj) (h.index_lt hslot) hid
  unfold Book.Holds at hj
  rw [hslot] at hj
  cases hj
  rfl

theorem live_unique (hr : b.Live r) (hr' : b.Live r') (hid : r.id = r'.id) : r = r' := by
  obtain ⟨i, g, hi⟩ := hr'
  have heq := h.holds_of_id hr hi (hid.trans (h.id_eq hi))
  simpa using (mk.inj heq).2.2.symm

theorem live_set (hslot : b.slots[i]? = some slot) (slot' : RequestSlot O P)
    (x : KernelRequest O P) : (∃ j g : Nat, (b.slots.set i slot')[j]? = some ⟨g, false, some x⟩) ↔
      (∃ g, slot' = ⟨g, false, some x⟩) ∨ b.Live x ∧ x.id ≠ .fromParts i slot.generation := by
  constructor
  · rintro ⟨j, g', hj⟩
    rcases (getElem?_set_iff hslot _ _ _).mp hj with ⟨-, heq⟩ | ⟨hne, hj⟩
    · exact .inl ⟨g', heq.symm⟩
    · refine .inr ⟨⟨j, g', hj⟩, fun hx => hne ?_⟩
      rw [h.id_eq hj] at hx
      exact (fromParts_inj (h.index_lt hj) (h.index_lt hslot) hx).1
  · rintro (⟨g', rfl⟩ | ⟨⟨j, g', hj⟩, hne⟩)
    · exact ⟨i, g', (getElem?_set_iff hslot _ _ _).mpr (.inl ⟨rfl, rfl⟩)⟩
    · refine ⟨j, g', (getElem?_set_iff hslot _ _ _).mpr (.inr ⟨?_, hj⟩)⟩
      rintro rfl
      cases hslot.symm.trans hj
      exact hne (h.id_eq hj)

theorem live_put (hslot : b.slots[i]? = some slot)
    (hid : r'.id = .fromParts i slot.generation) (x : KernelRequest O P) :
    (b.put i slot.generation r').Live x ↔ x = r' ∨ b.Live x ∧ x.id ≠ r'.id := by
  rw [hid]
  refine (h.live_set hslot _ x).trans (or_congr_left ?_)
  simp [eq_comm]

theorem live_clear (hr : b.Holds i g r) (hvac : slot.request = none)
    (diag : RequestRuntimeDiagnostics) (x : KernelRequest O P) :
    Book.Live { b with slots := b.slots.set i slot, diagnostics := diag } x ↔
      b.Live x ∧ x.id ≠ r.id := by
  rw [h.id_eq hr]
  refine (h.live_set hr _ x).trans (or_iff_right ?_)
  rintro ⟨g', rfl⟩
  cases hvac

theorem set {slot' : RequestSlot O P} (hslot : b.slots[i]? = some slot)
    (hlow : 1 ≤ slot'.generation) (hhigh : slot'.generation ≤ u32Max)
    (hnamed : ∀ r, slot'.request = some r → slot'.retired = false ∧
      r.id = .fromParts i slot'.generation) : Slots b.limits (b.slots.set i slot') := by
  refine ⟨?_, h.capacity, fun j x hj => ?_, fun j x y hj hy => ?_⟩
  · rw [List.length_set]
    exact h.length
  · rcases (getElem?_set_iff hslot _ _ _).mp hj with ⟨-, rfl⟩ | ⟨-, hj⟩
    · exact ⟨hlow, hhigh⟩
    · exact h.generation j x hj
  · rcases (getElem?_set_iff hslot _ _ _).mp hj with ⟨rfl, rfl⟩ | ⟨-, hj⟩
    · exact hnamed y hy
    · exact h.named j x y hj hy

theorem put (hslot : b.slots[i]? = some slot) (hid : r'.id = .fromParts i slot.generation) :
    Slots b.limits (b.put i slot.generation r').slots := by
  have hbounds := h.generation i slot hslot
  refine h.set hslot hbounds.1 hbounds.2 fun r hr => ⟨rfl, ?_⟩
  cases hr
  exact hid

theorem vacated (hr : b.Holds i g r) : Slots b.limits (b.slots.set i (.vacated g)) := by
  have hbounds : 1 ≤ g ∧ g ≤ u32Max := h.generation i _ hr
  unfold RequestSlot.vacated
  split
  · exact h.set hr (by simp) (by assumption) (by simp)
  · exact h.set hr hbounds.1 hbounds.2 (by simp)

end Slots

variable {M : Type} [AddCommMonoid M] {b : Book O P} {i g : Nat} {r : KernelRequest O P}
  (f : KernelRequest O P → M)

theorem usage_put (hr : b.Holds i g r) (r' : KernelRequest O P) :
    (b.put i g r').usage f + f r = b.usage f + f r' :=
  sum_map_set hr _ _

theorem usage_fill (hslot : b.slots[i]? = some ⟨g, false, none⟩) (r' : KernelRequest O P) :
    (b.put i g r').usage f = b.usage f + f r' := by
  have h := sum_map_set hslot (fun slot => (slot.request.map f).getD 0) ⟨g, false, some r'⟩
  simp only [map_none, getD_none, add_zero] at h
  exact h

theorem vacated_request (g : Nat) : (RequestSlot.vacated g : RequestSlot O P).request = none := by
  unfold vacated
  split <;> rfl

theorem usage_vacated (hr : b.Holds i g r) (diag : RequestRuntimeDiagnostics) :
    Book.usage f { b with slots := b.slots.set i (.vacated g), diagnostics := diag } + f r =
      b.usage f := by
  have h := sum_map_set hr (fun slot => (slot.request.map f).getD 0) (.vacated g)
  rw [vacated_request] at h
  simp only [map_none, getD_none, add_zero] at h
  exact h

theorem le_usage {f : KernelRequest O P → Nat} (hr : b.Holds i g r) : f r ≤ b.usage f := by
  have h := usage_vacated f hr b.diagnostics
  omega

end Ginkgo.Kernel.Request
