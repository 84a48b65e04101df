import Ginkgo.Kernel.Request.Invariant

/-!
# What the history says of a request

A request is published and released at most once, in that order, keeps its end, and is
released only after every device that reached its resources stopped.
-/

namespace Ginkgo.Kernel.Request

open Ginkgo.Lib Ginkgo.Sysapi List RequestRuntime RequestAction

variable {O P : Type} {r r' : KernelRequest O P} {e : Event O P} {b b' : Book O P} {id : RequestId}

/-- The event hands out an action of this kind for the request. -/
def Event.dispatches (id : RequestId) (kind : ActionKind) : Event O P → Bool
  | .action taken => taken.id = id && taken.kind = kind
  | _ => false

/-- How often an action of this kind was handed out for the request. -/
def dispatched (id : RequestId) (kind : ActionKind) (history : List (Event O P)) : Nat :=
  history.countP (Event.dispatches id kind)

/-- The event neither hands out an action of the request nor gives it to a device. -/
def Spares (id : RequestId) (e : Event O P) : Prop :=
  (∀ kind, dispatched id kind [e] = 0) ∧ e ≠ .owned id

/-! ## How a request goes on -/

/-- The second request is the first one after the event. -/
structure Continues (e : Event O P) (r r' : KernelRequest O P) : Prop where
  id : r'.id = r.id
  device : r'.device = r.device
  ended : isTerminal r.state = true →
    r'.state = r.state ∧ r'.status = r.status ∧ r'.completedAtNs = r.completedAtNs
  freed : r'.resourceState.isDraining = false → r.resourceState.isDraining = false ∨ Frees e r

theorem Continues.of_state_eq (hid : r'.id = r.id) (hdev : r'.device = r.device)
    (hst : r'.state = r.state) (hstatus : r'.status = r.status)
    (hcomp : r'.completedAtNs = r.completedAtNs)
    (hdraining : r'.resourceState.isDraining = r.resourceState.isDraining) : Continues e r r' :=
  ⟨hid, hdev, fun _ => ⟨hst, hstatus, hcomp⟩, fun h => .inl (hdraining ▸ h)⟩

theorem Continues.refl (e : Event O P) (r : KernelRequest O P) : Continues e r r :=
  .of_state_eq rfl rfl rfl rfl rfl rfl

theorem Continues.of_ongoing (hid : r'.id = r.id) (hdev : r'.device = r.device)
    (hlive : isTerminal r.state = false)
    (hdraining : r'.resourceState.isDraining = r.resourceState.isDraining) : Continues e r r' := by
  refine ⟨hid, hdev, fun hended => ?_, fun h => .inl (hdraining ▸ h)⟩
  rw [hlive] at hended
  cases hended

theorem Continues.amends {actions actions' : List RequestAction}
    (ha : Amends e r actions r' actions') : Continues e r r' := by
  cases ha with
  | free hfree hdraining =>
    exact ⟨rfl, rfl, fun _ => ⟨rfl, rfl, rfl⟩, fun _ => .inr hfree⟩
  | cancelPending hst => exact .of_ongoing rfl rfl (by rw [hst]; rfl) rfl
  | queueCancel why hlive hqueued | removeCancel hqueued =>
    exact .of_state_eq rfl rfl rfl rfl rfl rfl
  | queueRelease hterm howned hqueued =>
    exact .of_state_eq rfl rfl rfl rfl rfl (by rw [howned]; rfl)

theorem Continues.finished (e : Event O P) (hlive : isTerminal r.state = false)
    (state : RequestState) (status : Status) (now : Nat) :
    Continues e r (r.finished state status now) := by
  refine .of_ongoing rfl rfl hlive ?_
  unfold KernelRequest.finished KernelRequest.concluded
  cases hresource : r.resourceState <;> rfl

/-- The id of a use of a slot that has not begun. -/
def Book.Unissued (b : Book O P) (id : RequestId) : Prop :=
  ∃ (i g : Nat) (slot : RequestSlot O P), id = .fromParts i g ∧ b.slots[i]? = some slot ∧
    (slot.generation < g ∨ slot.generation = g ∧ slot.request = none ∧ slot.retired = false)

theorem Inv.not_live_of_unissued {b : Book O P} (h : Inv b) (hid : b.Unissued id)
    (hr : b.Live r) : r.id ≠ id := by
  rintro rfl
  obtain ⟨i, g, slot, hid, hslot, hfuture⟩ := hid
  obtain ⟨j, g', hr⟩ := hr
  rw [h.slots.id_eq hr] at hid
  obtain ⟨rfl, rfl⟩ := RequestId.fromParts_inj (h.slots.index_lt hr) (h.slots.index_lt hslot) hid
  unfold Book.Holds at hr
  rw [hslot] at hr
  cases hr
  rcases hfuture with hlt | ⟨-, hnone, -⟩
  · exact Nat.lt_irrefl _ hlt
  · cases hnone

theorem unissued_of_set {b : Book O P} {i : Nat} {slot slot' : RequestSlot O P}
    (hslot : b.slots[i]? = some slot) (hnext : ∀ g, slot'.generation < g ∨
      slot'.generation = g ∧ slot'.request = none ∧ slot'.retired = false →
      slot.generation < g ∨ slot.generation = g ∧ slot.request = none ∧ slot.retired = false)
    {b' : Book O P}
    (hslots : b'.slots = b.slots.set i slot') (h : b'.Unissued id) :
    b.Unissued id := by
  obtain ⟨j, g, other, hid, hother, hfuture⟩ := h
  rw [hslots] at hother
  rcases (getElem?_set_iff hslot _ _ _).mp hother with ⟨rfl, rfl⟩ | ⟨-, hother⟩
  · exact ⟨j, g, slot, hid, hslot, hnext g hfuture⟩
  · exact ⟨j, g, other, hid, hother, hfuture⟩

theorem unissued_of_put {i g : Nat} (hr : b.Holds i g r)
    (hslots : b'.slots = b.slots.set i ⟨g, false, some r'⟩) (h : b'.Unissued id) :
    b.Unissued id := by
  refine unissued_of_set hr (fun g' hfuture => ?_) hslots h
  rcases hfuture with hlt | ⟨-, hnone, -⟩
  · exact .inl hlt
  · cases hnone

theorem unissued_of_vacated {i g : Nat} (hr : b.Holds i g r)
    (hslots : b'.slots = b.slots.set i (.vacated g)) (h : b'.Unissued id) :
    b.Unissued id := by
  refine unissued_of_set hr (fun g' hfuture => .inl ?_) hslots h
  unfold RequestSlot.vacated at hfuture
  split at hfuture
  · rcases hfuture with hlt | ⟨rfl, -⟩
    · exact Nat.lt_of_succ_lt hlt
    · exact Nat.lt_succ_self g
  · rcases hfuture with hlt | ⟨-, -, hret⟩
    · exact hlt
    · cases hret

/-- What a consequence of an event does to the requests of the book. -/
theorem Silent.origin (h : Silent e b b') (hinv : Inv b) :
    (∀ r', b'.Live r' → ∃ r, b.Live r ∧ Continues e r r' ∧
      r'.terminalPublicationDispatched = r.terminalPublicationDispatched ∧
      r'.resourceReleaseDispatched = r.resourceReleaseDispatched) ∧
    ∀ id, b'.Unissued id → b.Unissued id := by
  cases h with
  | @amend i g r r' actions hr ha =>
    have hid : r'.id = r.id := (Continues.amends ha).id
    refine ⟨fun x hx => ?_, fun id => unissued_of_put hr rfl⟩
    rcases ((hinv.replaced hr hid).iff x).mp hx with rfl | ⟨hx, -⟩
    · exact ⟨r, ⟨i, g, hr⟩, .amends ha, by cases ha <;> rfl, by cases ha <;> rfl⟩
    · exact ⟨x, hx, .refl e x, rfl, rfl⟩
  | @finish i g r state status now hr hlive hterm =>
    have hcont := Continues.finished e hlive state status now
    refine ⟨fun x hx => ?_, fun id => unissued_of_put hr rfl⟩
    rcases ((hinv.replaced hr hcont.id).iff x).mp hx with rfl | ⟨hx, -⟩
    · exact ⟨r, ⟨i, g, hr⟩, hcont, rfl, rfl⟩
    · exact ⟨x, hx, .refl e x, rfl, rfl⟩
  | vacate hr hterm hq hact =>
    exact ⟨fun x hx => ⟨x, hx, .refl e x, rfl, rfl⟩, fun _ hid => hid⟩
  | release hq hidle => exact ⟨fun x hx => ⟨x, hx, .refl e x, rfl, rfl⟩, fun _ hid => hid⟩
  | @retire i g r hr hretirable hidle =>
    have hclear := hinv.slots.live_clear hr (vacated_request g)
      { b.diagnostics with liveRequests := b.diagnostics.liveRequests - 1 }
    exact ⟨fun x hx => ⟨x, ((hclear x).mp hx).1, .refl e x, rfl, rfl⟩,
      fun id => unissued_of_vacated hr rfl⟩

/-- The request after the event itself, with the actions that were handed out. -/
structure Advances (e : Event O P) (r r' : KernelRequest O P) : Prop extends Continues e r r' where
  published : r'.terminalPublicationDispatched.toNat =
    r.terminalPublicationDispatched.toNat + dispatched r.id .publish [e]
  released : r'.resourceReleaseDispatched.toNat =
    r.resourceReleaseDispatched.toNat + dispatched r.id .release [e]
  owned : e = .owned r.id → r'.resourceState.isDraining = true

theorem Continues.advances (h : Continues e r r')
    (hpub : r'.terminalPublicationDispatched = r.terminalPublicationDispatched)
    (hreleased : r'.resourceReleaseDispatched = r.resourceReleaseDispatched)
    (hspared : Spares r.id e) : Advances e r r' where
  toContinues := h
  published := by rw [hpub, hspared.1, Nat.add_zero]
  released := by rw [hreleased, hspared.1, Nat.add_zero]
  owned howned := absurd howned hspared.2

theorem dispatched_action (id : RequestId) (kind : ActionKind) (act : RequestAction) :
    dispatched id kind [(.action act : Event O P)] =
      if act.id = id ∧ act.kind = kind then 1 else 0 := by
  by_cases h : act.id = id ∧ act.kind = kind
  · simp [dispatched, Event.dispatches]
  · simp only [dispatched, countP_cons, Event.dispatches]
    simp [h]

theorem Advances.pop {act : RequestAction} (hsound : Sound r) (hid : act.id = r.id)
    (hqueued : act.kind ∈ kinds r) :
    Advances (.action act) r (RequestRuntime.dispatchAction act r) := by
  refine ⟨by cases act <;> exact .of_state_eq rfl rfl rfl rfl rfl rfl, ?_, ?_, by rintro ⟨⟩⟩ <;>
    rw [dispatched_action]
  · cases act with
    | publishTerminal id state status completedAtNs =>
      have hunpublished := hsound.unpublished (publish_mem_kinds.mp hqueued)
      simp [dispatchAction, hunpublished, hid, kind]
    | _ => simp [dispatchAction, kind]
  · cases act with
    | releaseResources id owner resources =>
      have hundispatched : r.resourceReleaseDispatched = false := by
        rw [Bool.eq_false_iff]
        intro hdisp
        have hnot := hsound.dispatched hdisp
        rw [release_mem_kinds.mp hqueued] at hnot
        cases hnot
      simp [dispatchAction, hundispatched, hid, kind]
    | _ => simp [dispatchAction, kind]

/-- A request was in the book before the event or is submitted by it. -/
def Book.Origin (e : Event O P) (b b' : Book O P) : Prop :=
  (∀ r', b'.Live r' → (∃ r, b.Live r ∧ Advances e r r') ∨ ∃ sub now, e = .submitted r'.id sub ∧
    b.Unissued r'.id ∧ r' = .pending r'.id sub now) ∧ ∀ id, b'.Unissued id → b.Unissued id

/-- The other requests do not see an event that concerns one. -/
theorem origin_put {i g : Nat} (hinv : Inv b) (hr : b.Holds i g r)
    (h : Advances e r r') (hothers : ∀ id, id ≠ r.id → Spares id e)
    (hslots : b'.slots = b.slots.set i ⟨g, false, some r'⟩) : Book.Origin e b b' := by
  refine ⟨fun x hx => .inl ?_, fun id => unissued_of_put hr hslots⟩
  have hx' : (b.put i g r').Live x := by
    unfold Book.Live Book.Holds at hx ⊢
    rw [hslots] at hx
    exact hx
  rcases ((hinv.replaced hr h.id).iff x).mp hx' with rfl | ⟨hx, hne⟩
  · exact ⟨r, ⟨i, g, hr⟩, h⟩
  · exact ⟨x, hx, (Continues.refl e x).advances rfl rfl (hothers x.id fun heq =>
      hne (heq.trans h.id.symm))⟩

theorem Visible.origin (h : Visible b e b') (hinv : Inv b) : Book.Origin e b b' := by
  cases h with
  | @submit i g j q sub now hslot hq hname =>
    refine ⟨fun x hx => ?_, fun id => ?_⟩
    · have hnew : (KernelRequest.pending (.fromParts i g) sub now).id = .fromParts i g := rfl
      rcases (hinv.slots.live_put hslot hnew x).mp hx with rfl | ⟨hx, -⟩
      · exact .inr ⟨sub, now, rfl, ⟨i, g, _, rfl, hslot, .inr ⟨rfl, rfl, rfl⟩⟩, rfl⟩
      · exact .inl ⟨x, hx, (Continues.refl _ x).advances rfl rfl ⟨fun kind => rfl, nofun⟩⟩
    · refine unissued_of_set hslot (fun g' hfuture => ?_) rfl
      rcases hfuture with hlt | ⟨-, hnone, -⟩
      · exact .inl hlt
      · cases hnone
  | dispatch now hr hst hq hact hqueued | requeue hr hst howned hq hact =>
    refine origin_put hinv hr ?_ (fun id _ => ⟨fun kind => rfl, nofun⟩) rfl
    refine Continues.advances ?_ rfl rfl ⟨fun kind => rfl, nofun⟩
    exact .of_ongoing rfl rfl (by rw [hst]; rfl) rfl
  | own hr hst howned =>
    refine origin_put hinv hr ?_ (fun id hne => ⟨fun kind => rfl, ?_⟩) rfl
    · exact ⟨⟨rfl, rfl, fun _ => ⟨rfl, rfl, rfl⟩, nofun⟩, rfl, rfl, fun _ => rfl⟩
    · rintro ⟨⟩
      exact hne rfl
  | @pop i g r act rest hr hacts hid =>
    have hheld : b.Live r := ⟨i, g, hr⟩
    refine origin_put hinv hr (.pop (hinv.sound r hheld) hid ?_)
      (fun id hne => ⟨fun kind => ?_, nofun⟩) rfl
    · rw [← hinv.outbox.owed r hheld, hacts]
      exact mem_map_of_mem (mem_filter.mpr ⟨mem_cons_self, by simpa using hid⟩)
    · rw [dispatched_action, if_neg]
      rintro ⟨heq, -⟩
      exact hne (heq.symm.trans hid)
  | @acknowledge i g r hr hdisp howed =>
    have hsound := hinv.sound r ⟨i, g, hr⟩
    refine origin_put hinv hr ?_ (fun id _ => ⟨fun kind => rfl, nofun⟩) rfl
    refine Continues.advances ?_ rfl rfl ⟨fun kind => rfl, nofun⟩
    refine .of_state_eq rfl rfl rfl rfl rfl ?_
    rcases hsound.release_iff.mpr (.inr hdisp) with heq | heq
    · rw [heq]
      rfl
    · exact absurd heq howed
  | observe he =>
    refine ⟨fun x hx => .inl ⟨x, hx, ?_⟩, fun _ hid => hid⟩
    refine (Continues.refl e x).advances rfl rfl ?_
    cases e <;> first | exact False.elim he | exact ⟨fun kind => rfl, nofun⟩

structure Chronicle (history : List (Event O P)) (b : Book O P) : Prop where
  published : ∀ r, b.Live r →
    dispatched r.id .publish history = r.terminalPublicationDispatched.toNat
  released : ∀ r, b.Live r → dispatched r.id .release history = r.resourceReleaseDispatched.toNat
  once : ∀ id, dispatched id .publish history ≤ 1 ∧ dispatched id .release history ≤ 1
  ordered : ∀ past taken future, history = past ++ .action taken :: future →
    taken.kind = .release → 0 < dispatched taken.id .publish past
  freed : ∀ r, b.Live r → r.resourceState.isDraining = false → ∀ past future,
    history = past ++ .owned r.id :: future → ∃ e ∈ future, Frees e r
  unissued : ∀ id, b.Unissued id → (∀ kind, dispatched id kind history = 0) ∧ .owned id ∉ history

theorem Continues.frees {e e' : Event O P} (h : Continues e r r') (hfrees : Frees e' r) :
    Frees e' r' := by
  cases e' <;> simp only [Frees, h.id, h.device] at hfrees ⊢ <;> exact hfrees

theorem dispatched_concat (id : RequestId) (kind : ActionKind) (history : List (Event O P))
    (e : Event O P) :
    dispatched id kind (history ++ [e]) = dispatched id kind history + dispatched id kind [e] :=
  countP_append

/-- An event that does not spare a request is about one in the table, which stays there. -/
theorem Visible.subject (h : Visible b e b') (hinv : Inv b) (hid : ¬Spares id e) :
    (∃ r, b.Live r ∧ r.id = id) ∧ ∃ r', b'.Live r' ∧ r'.id = id := by
  cases h with
  | @own i g r hr hst howned =>
    have hsubject : r.id = id := Classical.byContradiction fun hne => hid ⟨fun kind => rfl, by
      rintro ⟨⟩
      exact hne rfl⟩
    have hkept : { r with resourceState := .deviceOwned }.id = r.id := rfl
    exact ⟨⟨r, ⟨i, g, hr⟩, hsubject⟩, _, (hinv.replaced hr hkept).new, hsubject⟩
  | @pop i g r act rest hr hacts haction =>
    have hsubject : r.id = id := Classical.byContradiction fun hne =>
      hid ⟨fun kind => by
        rw [dispatched_action, if_neg]
        rintro ⟨heq, -⟩
        exact hne (haction.symm.trans heq), nofun⟩
    have hkept := dispatchAction_id act r
    exact ⟨⟨r, ⟨i, g, hr⟩, hsubject⟩, _, (hinv.replaced hr hkept).new, hkept.trans hsubject⟩
  | observe he =>
    refine absurd ?_ hid
    cases e <;> first | exact False.elim he | exact ⟨fun kind => rfl, nofun⟩
  | _ => exact absurd ⟨fun kind => rfl, nofun⟩ hid

namespace Chronicle

variable {history : List (Event O P)} {b b' : Book O P} {e : Event O P}

theorem silent (h : Chronicle (history ++ [e]) b) (hinv : Inv b) (hs : Silent e b b') :
    Chronicle (history ++ [e]) b' := by
  obtain ⟨horigin, hunissued⟩ := hs.origin hinv
  refine ⟨fun r' hr' => ?_, fun r' hr' => ?_, h.once, h.ordered,
    fun r' hr' hdraining past future heq => ?_, fun id hid => h.unissued id (hunissued id hid)⟩
  all_goals obtain ⟨r, hr, hcont, hpub, hreleased⟩ := horigin r' hr'
  · rw [hcont.id, h.published r hr, hpub]
  · rw [hcont.id, h.released r hr, hreleased]
  · rw [hcont.id] at heq
    rcases hcont.freed hdraining with hdraining | hfrees
    · obtain ⟨e', he', hfrees⟩ := h.freed r hr hdraining past future heq
      exact ⟨e', he', hcont.frees hfrees⟩
    refine ⟨e, ?_, hcont.frees hfrees⟩
    rcases concat_eq_append_cons heq with ⟨-, -, howned⟩ | ⟨rest, rfl, -⟩
    · rw [← howned] at hfrees
      exact False.elim hfrees
    · exact mem_append_right _ mem_cons_self

theorem visible (h : Chronicle history b) (hinv : Inv b) (hv : Visible b e b') :
    Chronicle (history ++ [e]) b' := by
  obtain ⟨horigin, hunissued⟩ := hv.origin hinv
  have hpub : ∀ r', b'.Live r' →
      dispatched r'.id .publish (history ++ [e]) = r'.terminalPublicationDispatched.toNat := by
    intro r' hr'
    rw [dispatched_concat]
    rcases horigin r' hr' with ⟨r, hr, hadvances⟩ | ⟨sub, now, rfl, hid, heq⟩
    · rw [hadvances.published, hadvances.id, h.published r hr]
    · rw [(h.unissued _ hid).1, heq]
      rfl
  have hreleased : ∀ r', b'.Live r' →
      dispatched r'.id .release (history ++ [e]) = r'.resourceReleaseDispatched.toNat := by
    intro r' hr'
    rw [dispatched_concat]
    rcases horigin r' hr' with ⟨r, hr, hadvances⟩ | ⟨sub, now, rfl, hid, heq⟩
    · rw [hadvances.released, hadvances.id, h.released r hr]
    · rw [(h.unissued _ hid).1, heq]
      rfl
  refine ⟨hpub, hreleased, fun id => ?_, fun past taken future heq hkind => ?_,
    fun r' hr' hdraining past future heq => ?_, fun id hid => ?_⟩
  · by_cases hspared : Spares id e
    · rw [dispatched_concat, dispatched_concat, hspared.1, hspared.1]
      exact h.once id
    · obtain ⟨-, r', hr', rfl⟩ := hv.subject hinv hspared
      rw [hpub r' hr', hreleased r' hr']
      exact ⟨Bool.toNat_le _, Bool.toNat_le _⟩
  · rcases concat_eq_append_cons heq with ⟨-, rfl, rfl⟩ | ⟨rest, -, hpast⟩
    · have hreleases : dispatched taken.id .release [(.action taken : Event O P)] = 1 := by
        rw [dispatched_action, if_pos ⟨rfl, hkind⟩]
      obtain ⟨-, r', hr', hid⟩ := hv.subject hinv fun hspared => by
        rw [hspared.1] at hreleases
        cases hreleases
      have hsound := (hinv.visible hv).sound r' hr'
      have hrel := hreleased r' hr'
      have hpublish := hpub r' hr'
      rw [dispatched_concat, hid] at hrel hpublish
      rw [hreleases] at hrel
      have hflag : r'.resourceReleaseDispatched = true := by
        rw [← Bool.not_eq_false]
        intro hflag
        rw [hflag] at hrel
        cases hrel
      have hsilent : dispatched taken.id .publish [(.action taken : Event O P)] = 0 := by
        rw [dispatched_action, if_neg fun h => by rw [hkind] at h; cases h.2]
      rw [hsilent, Nat.add_zero, hsound.ordered hflag] at hpublish
      rw [hpublish]
      exact Nat.one_pos
    · exact h.ordered past taken rest hpast hkind
  · rcases horigin r' hr' with ⟨r, hr, hadvances⟩ | ⟨sub, now, rfl, hid, -⟩
    · rw [hadvances.id] at heq
      rcases concat_eq_append_cons heq with ⟨-, -, howned⟩ | ⟨rest, rfl, hpast⟩
      · rw [hadvances.owned howned.symm] at hdraining
        cases hdraining
      · rcases hadvances.freed hdraining with hdraining | hfrees
        · obtain ⟨e', he', hfrees⟩ := h.freed r hr hdraining past rest hpast
          exact ⟨e', mem_append_left _ he', hadvances.frees hfrees⟩
        · exact ⟨e, mem_append_right _ mem_cons_self, hadvances.frees hfrees⟩
    · rcases concat_eq_append_cons heq with ⟨-, -, howned⟩ | ⟨rest, rfl, rfl⟩
      · cases howned
      · exact absurd (mem_append_right _ mem_cons_self) (h.unissued _ hid).2
  · have hspared : Spares id e := Classical.byContradiction fun hnot => by
      obtain ⟨r, hr, heq⟩ := (hv.subject hinv hnot).1
      exact hinv.not_live_of_unissued (hunissued id hid) hr heq
    obtain ⟨hcnt, howned⟩ := h.unissued id (hunissued id hid)
    refine ⟨fun kind => by rw [dispatched_concat, hcnt, hspared.1], fun hmem => ?_⟩
    rcases mem_append.mp hmem with hmem | hmem
    · exact howned hmem
    · exact hspared.2 (mem_singleton.mp hmem).symm

theorem step {events : List (Event O P)} (h : Chronicle history b) (hinv : Inv b)
    (hstep : b.Step events b') : Chronicle (history ++ events) b' := by
  obtain ⟨hvis, hsilent⟩ := hstep
  have hinv' := hinv.visible hvis
  have h' := h.visible hinv hvis
  induction hsilent with
  | refl => exact h'
  | tail hs hlast ih => exact ih.silent (hinv'.silents hs) hlast

end Chronicle

/-- Whatever the table says of the id from now on, it says that the request ended so. -/
structure Ended (id : RequestId) (state : RequestState) (status : Status)
    (completedAtNs : Option Nat) (b : Book O P) : Prop where
  terminal : isTerminal state = true
  issued : ¬b.Unissued id
  kept : ∀ r, b.Live r → r.id = id →
    r.state = state ∧ r.status = status ∧ r.completedAtNs = completedAtNs

namespace Ended

variable {id : RequestId} {state : RequestState} {status : Status} {completedAtNs : Option Nat}
  {b b' : Book O P} {e : Event O P}

theorem of_live (hinv : Inv b) {r : KernelRequest O P} (hr : b.Live r)
    (hterm : isTerminal r.state = true) : Ended r.id r.state r.status r.completedAtNs b where
  terminal := hterm
  issued hid := hinv.not_live_of_unissued hid hr rfl
  kept x hx hid := by
    obtain rfl := hinv.unique x r hx hr hid
    exact ⟨rfl, rfl, rfl⟩

variable (h : Ended id state status completedAtNs b)
include h

theorem continues {r r' : KernelRequest O P}
    (hr : b.Live r) (hcont : Continues e r r') (hid : r'.id = id) :
    r'.state = state ∧ r'.status = status ∧ r'.completedAtNs = completedAtNs := by
  obtain ⟨hst, hstatus, hcomp⟩ := h.kept r hr (hcont.id.symm.trans hid)
  obtain ⟨hst', hstatus', hcomp'⟩ := hcont.ended (hst ▸ h.terminal)
  exact ⟨hst'.trans hst, hstatus'.trans hstatus, hcomp'.trans hcomp⟩

theorem silent (hinv : Inv b) (hs : Silent e b b') : Ended id state status completedAtNs b' := by
  obtain ⟨horigin, hunissued⟩ := hs.origin hinv
  refine ⟨h.terminal, fun hid => h.issued (hunissued id hid), fun r' hr' hid => ?_⟩
  obtain ⟨r, hr, hcont, -⟩ := horigin r' hr'
  exact h.continues hr hcont hid

theorem visible (hinv : Inv b) (hv : Visible b e b') : Ended id state status completedAtNs b' := by
  obtain ⟨horigin, hunissued⟩ := hv.origin hinv
  refine ⟨h.terminal, fun hid => h.issued (hunissued id hid), fun r' hr' hid => ?_⟩
  rcases horigin r' hr' with ⟨r, hr, hadvances⟩ | ⟨-, -, -, hnew, -⟩
  · exact h.continues hr hadvances.toContinues hid
  · exact absurd (hid ▸ hnew) h.issued

theorem step {events : List (Event O P)} (hinv : Inv b)
    (hstep : b.Step events b') : Ended id state status completedAtNs b' := by
  obtain ⟨hvis, hsilent⟩ := hstep
  have hinv' := hinv.visible hvis
  have h' := h.visible hinv hvis
  induction hsilent with
  | refl => exact h'
  | tail hs hlast ih => exact ih.silent (hinv'.silents hs) hlast

end Ended

end Ginkgo.Kernel.Request
