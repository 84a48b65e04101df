import Ginkgo.Kernel.Request.Book

/-!
# Queued actions

The queue holds for each request the actions that its flags announce: first the
cancellation, then the publication, last the release.
-/

namespace Ginkgo.Kernel.Request

open Ginkgo.Lib Ginkgo.Sysapi List Bool

variable {O P : Type} {r : KernelRequest O P}

inductive ActionKind
  | cancel
  | publish
  | release
  deriving DecidableEq

def RequestAction.kind : RequestAction → ActionKind
  | .publishTerminal .. => .publish
  | .cancelDevice .. => .cancel
  | .releaseResources .. => .release

/-- What the flags of a request announce, in the order of the queue. -/
def kinds (r : KernelRequest O P) : List ActionKind :=
  (bif r.cancelActionQueued then [.cancel] else []) ++
    (bif r.terminalActionQueued then [.publish] else []) ++
    (bif r.releaseActionQueued then [.release] else [])

theorem publish_mem_kinds : .publish ∈ kinds r ↔ r.terminalActionQueued = true := by
  grind [kinds]

theorem release_mem_kinds : .release ∈ kinds r ↔ r.releaseActionQueued = true := by
  grind [kinds]

/-- The action carries what the request says. -/
def RequestAction.Describes : RequestAction → KernelRequest O P → Prop
  | .publishTerminal id state status completedAtNs, r =>
    id = r.id ∧ isTerminal r.state = true ∧ state = r.state ∧ status = r.status ∧
      r.completedAtNs = some completedAtNs
  | .cancelDevice id device _, r => id = r.id ∧ device = r.device
  | .releaseResources id owner resources, r =>
    id = r.id ∧ owner = r.owner ∧ resources = r.resources

theorem RequestAction.Describes.id_eq {action : RequestAction}
    (h : action.Describes r) : action.id = r.id := by
  cases action <;> exact h.1

theorem RequestAction.Describes.ongoing {action : RequestAction} {r r' : KernelRequest O P}
    (h : action.Describes r) (hlive : isTerminal r.state = false) (hid : r'.id = r.id)
    (hdev : r'.device = r.device) (howner : r'.owner = r.owner)
    (hrsrc : r'.resources = r.resources) : action.Describes r' := by
  cases action with
  | publishTerminal =>
    obtain ⟨-, hended, -⟩ := h
    rw [hlive] at hended
    cases hended
  | cancelDevice => exact ⟨h.1.trans hid.symm, h.2.trans hdev.symm⟩
  | releaseResources =>
    exact ⟨h.1.trans hid.symm, h.2.1.trans howner.symm, h.2.2.trans hrsrc.symm⟩

theorem isCancelOf_eq_true_iff (id : RequestId) (action : RequestAction) :
    RequestRuntime.isCancelOf id action = true ↔ action.id = id ∧ action.kind = .cancel := by
  cases action <;> simp [RequestRuntime.isCancelOf, RequestAction.id, RequestAction.kind]

structure Outbox (live : KernelRequest O P → Prop) (actions : List RequestAction) : Prop where
  owed : ∀ r, live r →
    (actions.filter fun action => action.id = r.id).map RequestAction.kind = kinds r
  described : ∀ action ∈ actions, ∃ r, live r ∧ action.Describes r

namespace Outbox

variable {live live' : KernelRequest O P → Prop} {actions : List RequestAction}
  {r r' : KernelRequest O P} {action : RequestAction}

section Replaced

variable (hs : Replaced live live' r r')
include hs

theorem describes (h : Outbox live actions) (hmem : action ∈ actions) (heq : action.id = r.id) :
    action.Describes r := by
  obtain ⟨x, hx, hdesc⟩ := h.described action hmem
  rwa [hs.eq_of_id hx (hdesc.id_eq.symm.trans heq)] at hdesc

theorem put (h : Outbox live actions) {actions' : List RequestAction}
    (howed : (actions'.filter fun action => action.id = r.id).map RequestAction.kind = kinds r')
    (hothers : actions'.filter (fun action => action.id ≠ r.id) =
      actions.filter fun action => action.id ≠ r.id)
    (hdescribed : ∀ action ∈ actions', action.id = r.id → action.Describes r') :
    Outbox live' actions' := by
  constructor
  · intro x hx
    rcases (hs.iff x).mp hx with rfl | ⟨hx, hne⟩
    · rw [hs.id_eq]
      exact howed
    rw [← h.owed x hx]
    have hne' : x.id ≠ r.id := hs.id_eq ▸ hne
    have hfilter : ∀ l : List RequestAction, l.filter (fun action => action.id = x.id) =
        (l.filter fun action => action.id ≠ r.id).filter fun action => action.id = x.id := by
      intro l
      rw [filter_filter]
      refine filter_congr fun action _ => ?_
      by_cases heq : action.id = x.id <;> simp [heq, hne']
    rw [hfilter, hothers, ← hfilter]
  · intro action haction
    by_cases heq : action.id = r.id
    · exact ⟨r', hs.new, hdescribed action haction heq⟩
    have hmem : action ∈ actions.filter fun action => action.id ≠ r.id := by
      rw [← hothers]
      exact mem_filter.mpr ⟨haction, by simpa using heq⟩
    obtain ⟨x, hx, hdesc⟩ := h.described action (mem_filter.mp hmem).1
    rcases hs.kept hx with rfl | ⟨hx, -⟩
    · exact absurd hdesc.id_eq heq
    · exact ⟨x, hx, hdesc⟩

variable (hdescribed : ∀ action : RequestAction, action.Describes r → action.Describes r')
include hdescribed

theorem amend (h : Outbox live actions) (hkinds : kinds r' = kinds r) : Outbox live' actions := by
  refine h.put hs ?_ rfl fun action haction heq => hdescribed action (h.describes hs haction heq)
  rw [hkinds]
  exact h.owed r hs.was

theorem push (h : Outbox live actions) (hkinds : kinds r' = kinds r ++ [action.kind])
    (hnew : action.Describes r') : Outbox live' (actions ++ [action]) := by
  have haction : action.id = r.id := hnew.id_eq.trans hs.id_eq
  refine h.put hs ?_ ?_ fun x hx heq => ?_
  · rw [filter_append, map_append, h.owed r hs.was, hkinds]
    simp [haction]
  · simp [haction]
  · rcases mem_append.mp hx with hx | hx
    · exact hdescribed x (h.describes hs hx heq)
    · rw [mem_singleton.mp hx]
      exact hnew

theorem pop (h : Outbox live (action :: actions)) (haction : action.id = r.id)
    (hkinds : kinds r = action.kind :: kinds r') : Outbox live' actions := by
  have howed := h.owed r hs.was
  rw [filter_cons_of_pos (by simpa using haction), hkinds] at howed
  refine h.put hs (cons_inj_right _ |>.mp howed) ?_ fun x hx heq =>
    hdescribed x (h.describes hs (mem_cons_of_mem _ hx) heq)
  rw [filter_cons_of_neg (by simpa using haction)]

theorem removeCancel (h : Outbox live actions)
    (hkinds : kinds r' = (kinds r).filter (· ≠ .cancel)) :
    Outbox live' (actions.filter fun action => !RequestRuntime.isCancelOf r.id action) := by
  refine h.put hs ?_ ?_ fun x hx heq =>
    hdescribed x (h.describes hs (mem_filter.mp hx).1 heq)
  · rw [hkinds, ← h.owed r hs.was, filter_map, filter_filter, filter_filter]
    congr 1
    refine filter_congr fun action _ => ?_
    rw [Bool.eq_iff_iff]
    simp only [and_eq_true, not_eq_true', ← not_eq_true, isCancelOf_eq_true_iff,
      decide_eq_true_eq, Function.comp_apply]
    tauto
  · rw [filter_filter]
    refine filter_congr fun action _ => ?_
    rw [Bool.eq_iff_iff]
    simp only [and_eq_true, not_eq_true', ← not_eq_true, isCancelOf_eq_true_iff,
      decide_eq_true_eq]
    tauto

end Replaced

theorem length_removeCancel (h : Outbox live actions) (hr : live r)
    (hqueued : r.cancelActionQueued = true) :
    (actions.filter fun action => !RequestRuntime.isCancelOf r.id action).length + 1 =
      actions.length := by
  have hcancel : (actions.filter (RequestRuntime.isCancelOf r.id)).length = 1 := by
    have hcnt : ((actions.filter fun action => action.id = r.id).map
        RequestAction.kind).count .cancel = 1 := by
      rw [h.owed r hr, kinds, hqueued]
      cases r.terminalActionQueued <;> cases r.releaseActionQueued <;> decide
    rw [← hcnt, count_eq_countP, countP_map, countP_filter, ← countP_eq_length_filter]
    refine countP_congr fun action _ => ?_
    rw [isCancelOf_eq_true_iff]
    simp only [and_eq_true, decide_eq_true_eq, Function.comp_apply, beq_iff_eq]
    tauto
  have hsplit := length_eq_length_filter_add (l := actions) (RequestRuntime.isCancelOf r.id)
  omega

theorem fill (h : Outbox live actions) (hlive : ∀ x, live' x ↔ x = r' ∨ live x ∧ x.id ≠ r'.id)
    (hfresh : ∀ x, live x → x.id ≠ r'.id) (hkinds : kinds r' = []) : Outbox live' actions := by
  constructor
  · intro x hx
    rcases (hlive x).mp hx with rfl | ⟨hx, -⟩
    · rw [hkinds, map_eq_nil_iff, filter_eq_nil_iff]
      intro action haction heq
      obtain ⟨y, hy, hdesc⟩ := h.described action haction
      exact hfresh y hy (hdesc.id_eq.symm.trans (by simpa using heq))
    · exact h.owed x hx
  · intro action haction
    obtain ⟨x, hx, hdesc⟩ := h.described action haction
    exact ⟨x, (hlive x).mpr (.inr ⟨hx, hfresh x hx⟩), hdesc⟩

theorem clear (h : Outbox live actions) (hr : live r) (hlive : ∀ x, live' x ↔ live x ∧ x.id ≠ r.id)
    (hkinds : kinds r = []) : Outbox live' actions := by
  have hnone := h.owed r hr
  rw [hkinds, map_eq_nil_iff, filter_eq_nil_iff] at hnone
  constructor
  · intro x hx
    exact h.owed x ((hlive x).mp hx).1
  · intro action haction
    obtain ⟨x, hx, hdesc⟩ := h.described action haction
    refine ⟨x, (hlive x).mpr ⟨hx, fun heq => hnone action haction ?_⟩, hdesc⟩
    simpa using hdesc.id_eq.trans heq

end Outbox

end Ginkgo.Kernel.Request
