import Ginkgo.Kernel.Request.Invariant

/-!
# The runtime follows the book

What each internal operation does is a sequence of silent edits of the book, when the
invariant holds before it.
-/

namespace Ginkgo.Kernel.Request

open Ginkgo.Lib Ginkgo.Sysapi List RequestRuntime Option KernelRequest

namespace RequestRuntime

variable {O P : Type} {s s' s'' : RequestRuntime O P} {i g j : Nat} {r : KernelRequest O P}
  {e : Event O P} {id : RequestId} {f : KernelRequest O P → KernelRequest O P} {queue : TargetQueue}
  {state : RequestState}

def Holds (s : RequestRuntime O P) (i g : Nat) (r : KernelRequest O P) : Prop :=
  s.slots[i]? = some ⟨g, false, some r⟩

theorem Holds.book (hr : s.Holds i g r) : s.book.Holds i g r.erase := by
  unfold Holds at hr
  simp [Book.Holds, RequestRuntime.book, hr, RequestSlot.erase]

theorem slots_of_book (h : Slots s.book.limits s.book.slots) : Slots s.limits s.slots := by
  have hget : ∀ (i : Nat) slot, s.slots[i]? = some slot →
      s.book.slots[i]? = some slot.erase := by
    intro i slot hslot
    simp [book, hslot]
  refine ⟨?_, h.capacity, fun i slot hslot => ?_, fun i slot r hslot hr => ?_⟩
  · have hlen := h.length
    simp only [book, length_map] at hlen
    exact hlen
  · exact h.generation i slot.erase (hget i slot hslot)
  · have hnamed := h.named i slot.erase r.erase (hget i slot hslot)
    simp only [RequestSlot.erase, hr, map_some, true_implies] at hnamed
    exact hnamed

theorem Holds.requestAt (hr : s.Holds i g r) : s.requestAt i = some r := by
  unfold Holds at hr
  simp [RequestRuntime.requestAt, hr]

theorem lookup (id : RequestId) (s : RequestRuntime O P) :
    s.validRequestIndex id = none ∨ ∃ i g r, s.Holds i g r ∧ r.id = id ∧
      s.validRequestIndex id = some i ∧ s.requestAt i = some r := by
  cases hvalid : s.validRequestIndex id with
  | none => exact .inl rfl
  | some i =>
    refine .inr ?_
    unfold validRequestIndex at hvalid
    cases hidx : id.index with
    | none => simp [hidx] at hvalid
    | some index =>
      cases hslot : s.slots[index]? with
      | none => simp [hidx, hslot] at hvalid
      | some slot =>
        simp only [hidx, hslot, ite_none_right_eq_some, Bool.and_eq_true,
          Option.any_eq_true, beq_iff_eq, Option.some.injEq] at hvalid
        obtain ⟨⟨⟨⟨-, hret⟩, -⟩, r, hreq, hid⟩, rfl⟩ := hvalid
        have hr : s.Holds index slot.generation r := by
          unfold Holds
          cases slot
          simp_all
        exact ⟨index, slot.generation, r, hr, hid, rfl, hr.requestAt⟩

theorem Holds.validRequestIndex (hslots : Slots s.limits s.slots) (hr : s.Holds i g r) :
    s.validRequestIndex r.id = some i := by
  unfold Holds at hr
  have hid := (hslots.named i _ r hr rfl).2
  have hidx : i < u32Max := by
    have hlt := lt_length hr
    have hlen := hslots.length
    have hcap := hslots.capacity
    omega
  obtain ⟨hvalid, hfound, hgen⟩ := RequestId.fromParts_spec hidx (hslots.generation i _ hr).1
  rw [← hid] at hvalid hfound hgen
  unfold RequestRuntime.validRequestIndex
  rw [hfound]
  simp [hr, hvalid, hgen]

theorem Holds.request (hslots : Slots s.limits s.slots) (hr : s.Holds i g r) :
    s.request r.id = some r := by
  unfold RequestRuntime.request
  rw [hr.validRequestIndex hslots]
  exact hr.requestAt

section

variable (hr : s.Holds i g r)
include hr

section

variable (f : KernelRequest O P → KernelRequest O P)

theorem modifyRequest_eq :
    s.modifyRequest i f = { s with slots := s.slots.set i ⟨g, false, some (f r)⟩ } := by
  unfold modifyRequest
  rw [modify_eq_set hr]
  rfl

theorem Holds.modifyRequest : (s.modifyRequest i f).Holds i g (f r) := by
  rw [modifyRequest_eq hr]
  exact (getElem?_set_iff hr _ _ _).mpr (.inl ⟨rfl, rfl⟩)

theorem book_modifyRequest : (s.modifyRequest i f).book = s.book.put i g (f r).erase := by
  rw [modifyRequest_eq hr]
  unfold book Book.put
  simp only [map_set]
  rfl

end

omit hr in
theorem put_self {b : Book O P} (hr : b.Holds i g r) : b.put i g r = b := by
  unfold Book.put
  rw [set_getElem?_self hr]

theorem book_modifyRequest_of_erase (hf : (f r).erase = r.erase) :
    (s.modifyRequest i f).book = s.book := by
  rw [book_modifyRequest hr, hf, put_self hr.book]

theorem modifyRequest_congr {f' : KernelRequest O P → KernelRequest O P}
    (hf : f r = f' r) : s.modifyRequest i f = s.modifyRequest i f' := by
  rw [modifyRequest_eq hr, modifyRequest_eq hr, hf]

theorem modifyRequest_modifyRequest (f f' : KernelRequest O P → KernelRequest O P) :
    (s.modifyRequest i f).modifyRequest i f' = s.modifyRequest i fun r => f' (f r) := by
  rw [modifyRequest_eq (hr.modifyRequest f), modifyRequest_eq hr, modifyRequest_eq hr]
  simp only [set_set]

end

/-! ## Consequences -/

/-- The second state is a consequence of the event in the first. -/
def Follows (e : Event O P) (s s' : RequestRuntime O P) : Prop :=
  Relation.ReflTransGen (Silent e) s.book s'.book

namespace Follows

theorem refl (s : RequestRuntime O P) : Follows e s s := Relation.ReflTransGen.refl

theorem of_book_eq (h : s'.book = s.book) : Follows e s s' := by
  unfold Follows
  rw [h]

theorem single (h : Silent e s.book s'.book) : Follows e s s' := Relation.ReflTransGen.single h

theorem trans (h : Follows e s s') (h' : Follows e s' s'') : Follows e s s'' :=
  Relation.ReflTransGen.trans h h'

theorem inv (h : Follows e s s') (hinv : Inv s.book) : Inv s'.book := hinv.silents h

theorem andThen (hinv : Inv s.book) (h : Follows e s s')
    (h' : Inv s'.book → Follows e s' s'') : Follows e s s'' := h.trans (h' (h.inv hinv))

end Follows

theorem follows_amend (hr : s.Holds i g r) {r' : KernelRequest O P} {actions : List RequestAction}
    (hf : (f r).erase = r') (ha : Amends e r.erase s.actions r' actions) :
    Follows e s { s.modifyRequest i f with actions := actions } := by
  refine .single ?_
  have hbook : { s.modifyRequest i f with actions := actions }.book =
      { s.book.put i g r' with actions := actions } := by
    rw [← hf, ← book_modifyRequest hr]
    rfl
  rw [hbook]
  exact .amend hr.book ha

theorem follows_modifyRequest (hr : s.Holds i g r) (r' : KernelRequest O P) (hf : (f r).erase = r')
    (ha : Amends e r.erase s.actions r' s.actions) :
    Follows e s (s.modifyRequest i f) := follows_amend hr hf ha

theorem queueCancelAction_follows (hinv : Inv s.book) (hr : s.Holds i g r)
    (hlive : isTerminal r.state = false) (why : RequestCancelReason) :
    Follows e s (s.queueCancelAction r.id why) := by
  simp only [queueCancelAction, hr.validRequestIndex (slots_of_book hinv.slots), hr.requestAt]
  split
  · exact .refl s
  · rename_i hflags
    simp only [Bool.or_eq_true, not_or, Bool.not_eq_true] at hflags
    exact follows_amend hr rfl (.queueCancel why hlive hflags.1)

theorem removeCancelAction_follows : Follows e s (s.removeCancelAction id) := by
  rcases s.lookup id with hnone | ⟨i, g, r, hr, rfl, hvalid, hat⟩
  · simp only [removeCancelAction, hnone]
    exact .refl s
  simp only [removeCancelAction, hvalid, hat]
  split
  · exact .refl s
  · rename_i hflag
    have hqueued : r.cancelActionQueued = true := by simpa using hflag
    exact follows_amend hr rfl (.removeCancel hqueued)

theorem Holds.removeCancelAction (hinv : Inv s.book) (hr : s.Holds i g r) :
    ∃ queued, (s.removeCancelAction r.id).Holds i g { r with cancelActionQueued := queued } := by
  simp only [RequestRuntime.removeCancelAction, hr.validRequestIndex (slots_of_book hinv.slots),
    hr.requestAt]
  split
  · exact ⟨r.cancelActionQueued, hr⟩
  · exact ⟨false, hr.modifyRequest fun request => { request with cancelActionQueued := false }⟩

theorem queueReleaseIfPossible_follows : Follows e s (s.queueReleaseIfPossible id) := by
  rcases s.lookup id with hnone | ⟨i, g, r, hr, rfl, hvalid, hat⟩
  · simp only [queueReleaseIfPossible, hnone]
    exact .refl s
  simp only [queueReleaseIfPossible, hvalid, hat]
  split
  · exact .refl s
  rename_i hflags
  simp only [Bool.or_eq_true, not_or, Bool.not_eq_true, Bool.not_eq_true', Bool.not_eq_false,
    decide_eq_true_eq, not_not] at hflags
  obtain ⟨⟨⟨hterm, howned⟩, hqueued⟩, -⟩ := hflags
  exact follows_amend hr rfl (.queueRelease hterm howned hqueued)

/-! ## Targets -/

theorem modifyTarget_eq (hq : s.targets[j]? = some queue) (f : TargetQueue → TargetQueue) :
    s.modifyTarget j f = { s with targets := s.targets.set j (f queue) } := by
  unfold modifyTarget
  rw [modify_eq_set hq]

theorem modifyTarget_self {f : TargetQueue → TargetQueue}
    (hf : ∀ queue, s.targets[j]? = some queue → f queue = queue) : s.modifyTarget j f = s := by
  unfold modifyTarget
  have hmodify : s.targets.modify j f = s.targets := by
    cases hq : s.targets[j]? with
    | none => exact modify_eq_self (List.getElem?_eq_none_iff.mp hq)
    | some queue =>
      rw [modify_eq_set hq, hf queue hq]
      obtain ⟨hlt, hget⟩ := List.getElem?_eq_some_iff.mp hq
      rw [← hget, set_getElem_self]
  rw [hmodify]

theorem releaseIdleTarget_follows : Follows e s (s.releaseIdleTarget j) := by
  unfold releaseIdleTarget
  cases hq : s.targets[j]? with
  | none =>
    rw [modifyTarget_self fun queue hsome => by rw [hq] at hsome; cases hsome]
    exact .refl s
  | some queue =>
    rw [modifyTarget_eq hq]
    split
    · exact .single (.release hq (by assumption))
    · refine .of_book_eq ?_
      obtain ⟨hlt, hget⟩ := List.getElem?_eq_some_iff.mp hq
      rw [← hget, set_getElem_self]

theorem clearActive_follows (hinv : Inv s.book) (hr : s.Holds i g r)
    (hterm : isTerminal r.state = true) :
    Follows e s (s.clearActive j r.id r.startedAtNs.isSome) := by
  unfold clearActive
  split
  · rename_i hact
    obtain ⟨queue, hq, hact⟩ := bind_eq_some_iff.mp hact
    have hstarted : r.startedAtNs.isSome = true :=
      ((hinv.lanes.lane j queue hq).name_of_active hinv.unique ⟨i, g, hr.book⟩ hact).2.1
    rw [if_pos hstarted, modifyTarget_eq hq]
    exact .single (.vacate hr.book hterm hq hact)
  · exact .refl s

theorem targetIndex_eq_some {target : RequestTarget} (h : s.targetIndex target = some j) :
    ∃ queue, s.targets[j]? = some queue ∧ queue.target = some target := by
  simpa using exists_of_findIdx? h

section

variable (hinv : Inv s.book)
include hinv

theorem targetIndex_of_name {target : RequestTarget}
    (hq : s.targets[j]? = some queue) (hname : queue.target = some target) :
    s.targetIndex target = some j := by
  cases hfound : s.targetIndex target with
  | none =>
    have hnot := findIdx?_eq_none_iff.mp hfound queue (mem_of_getElem? hq)
    simp [hname] at hnot
  | some k =>
    obtain ⟨other, hother, hname'⟩ := targetIndex_eq_some hfound
    rw [hinv.lanes.distinct k j other queue target hother hq hname' hname]

theorem releaseTargetIfSafe_follows : Follows e s (s.releaseTargetIfSafe id) := by
  rcases s.lookup id with hnone | ⟨i, g, r, hr, rfl, hvalid, hat⟩
  · simp only [releaseTargetIfSafe, request, hnone]
    exact .refl s
  simp only [releaseTargetIfSafe, request, hvalid, bind_some, hat]
  split
  · exact .refl s
  rename_i hsafe
  simp only [Bool.or_eq_true, not_or, Bool.not_eq_true, Bool.not_eq_false'] at hsafe
  split
  · exact .refl s
  · exact (clearActive_follows hinv hr hsafe.1).trans releaseIdleTarget_follows

theorem map_remove_eq_set (hr : s.Holds i g r)
    (hq : s.targets[j]? = some queue) (hname : queue.target = some r.target) :
    s.targets.map (TargetQueue.remove r.id) = s.targets.set j (queue.remove r.id) := by
  refine ext_getElem? fun k => ?_
  rw [getElem?_map, getElem?_set]
  by_cases hk : j = k
  · subst hk
    rw [if_pos rfl, if_pos (lt_length hq), hq]
    rfl
  · rw [if_neg hk]
    cases hother : s.targets[k]? with
    | none => rfl
    | some other =>
      have hnot : r.id ∉ other.queued := by
        intro hmem
        have hlane := hinv.lanes.lane k other hother
        obtain ⟨-, hname'⟩ := hlane.name_of_queued hinv.unique ⟨i, g, hr.book⟩ hmem
        exact hk (hinv.lanes.distinct j k queue other r.target hq hother hname hname')
      have hfilter : other.queued.filter (fun x => x ≠ r.id) = other.queued := by
        rw [filter_eq_self]
        intro x hx
        rw [decide_eq_true_eq]
        rintro rfl
        exact hnot hx
      simp only [map_some, TargetQueue.remove, hfilter]

theorem target_of_ongoing (hr : s.Holds i g r) (hlive : isTerminal r.state = false) :
    ∃ (j : Nat) (queue : TargetQueue), s.targets[j]? = some queue ∧
      queue.target = some r.target := by
  have hheld : s.book.Live r.erase := ⟨i, g, hr.book⟩
  rcases (hinv.sound _ hheld).state_cases with hst | hrun | hterm
  · obtain ⟨j, queue, hq, hname⟩ := hinv.lanes.pending r.erase hheld hst
    exact ⟨j, queue, hq, hname⟩
  · obtain ⟨j, queue, hq, hname, -⟩ := hinv.lanes.running _ hheld hrun
    exact ⟨j, queue, hq, hname⟩
  · have hnot : isTerminal r.erase.state = false := hlive
    rw [hterm] at hnot
    cases hnot

theorem dequeue_spec (hr : s.Holds i g r) (hlive : isTerminal r.state = false) :
    ∃ targets, s.dequeue r.target r.id = { s with
        targets := targets
        diagnostics := { s.diagnostics with
          queuedRequests := s.diagnostics.queuedRequests - if r.state = .pending then 1 else 0 } } ∧
      (targets = s.targets.map (TargetQueue.remove r.id) ∨ ∃ (j : Nat) (queue : TargetQueue),
          (s.targets.map (TargetQueue.remove r.id))[j]? = some queue ∧ queue.isIdle = true ∧
          targets = (s.targets.map (TargetQueue.remove r.id)).set j
            { queue with target := none }) := by
  obtain ⟨j, queue, hq, hname⟩ := target_of_ongoing hinv hr hlive
  have hlane := hinv.lanes.lane j queue hq
  have hheld : s.book.Live r.erase := ⟨i, g, hr.book⟩
  have hlen : (queue.queued.filter (fun other => other ≠ r.id)).length ≠ queue.queued.length ↔
      r.state = .pending := by
    rw [ne_eq, length_filter_eq_length_iff, not_forall]
    constructor
    · rintro ⟨x, hx⟩
      rw [Classical.not_imp, decide_eq_true_eq, not_not] at hx
      obtain ⟨hmem, rfl⟩ := hx
      exact (hlane.name_of_queued hinv.unique hheld hmem).1
    · intro hst
      have hmem : r.id ∈ queue.queued :=
        (hlane.queued_iff r.id).mpr ⟨r.erase, hheld, rfl, hst, hname⟩
      exact ⟨r.id, fun hall => by simpa using hall hmem⟩
  have hremoved := map_remove_eq_set hinv hr hq hname
  have hget : (s.targets.set j (queue.remove r.id))[j]? = some (queue.remove r.id) := by
    rw [getElem?_set, if_pos rfl, if_pos (lt_length hq)]
  have hdequeue : s.dequeue r.target r.id = releaseIdleTarget j { s with
      targets := s.targets.set j (queue.remove r.id)
      diagnostics := { s.diagnostics with
        queuedRequests := s.diagnostics.queuedRequests -
          if r.state = .pending then 1 else 0 } } := by
    unfold dequeue
    simp only [targetIndex_of_name hinv hq hname, hq, modifyTarget_eq hq]
    by_cases hst : r.state = .pending
    · rw [if_pos (hlen.mpr hst), if_pos hst]
      rfl
    · rw [if_neg (mt hlen.mp hst), if_neg hst]
      rfl
  rw [hdequeue, hremoved]
  unfold releaseIdleTarget
  rw [modifyTarget_eq hget]
  by_cases hidle : (queue.remove r.id).isIdle = true
  · exact ⟨_, rfl, .inr ⟨j, queue.remove r.id, hget, hidle, by rw [if_pos hidle]⟩⟩
  · exact ⟨_, rfl, .inl (by rw [if_neg hidle, set_set])⟩

end

/-! ## The end of a request -/

theorem deadlineHeap_unaffected :
    IndexedHeap.Unaffected (deadlineHeap (O := O) (P := P)) RequestRuntime.book := by
  refine ⟨fun _ _ => rfl, fun entry pos s => ?_⟩
  rcases s.lookup entry.id with hnone | ⟨i, g, r, hr, -, hvalid, -⟩
  · simp only [deadlineHeap, hnone]
  · simp only [deadlineHeap, hvalid]
    exact book_modifyRequest_of_erase hr rfl

theorem book_removeDeadlineAt (k : Nat) : (s.removeDeadlineAt k).book = s.book :=
  deadlineHeap_unaffected.removeAt k s

theorem book_removeRequestDeadline : (s.removeRequestDeadline id).book = s.book := by
  unfold removeRequestDeadline
  split
  · exact book_removeDeadlineAt _
  · rfl

theorem holds_of_book (hr : s.book.Holds i g r) : ∃ r', s.Holds i g r' ∧ r'.erase = r := by
  unfold Book.Holds book at hr
  rw [getElem?_map, map_eq_some_iff] at hr
  obtain ⟨slot, hslot, herase⟩ := hr
  obtain ⟨generation, retired, request⟩ := slot
  simp only [RequestSlot.erase, RequestSlot.mk.injEq, map_eq_some_iff] at herase
  obtain ⟨rfl, rfl, r', rfl, herase⟩ := herase
  exact ⟨r', hslot, herase⟩

theorem put_put (b : Book O P) (r r' : KernelRequest O P) :
    (b.put i g r).put i g r' = b.put i g r' := by
  unfold Book.put
  rw [set_set]

theorem queueTerminalAction_eq (hslots : Slots s.limits s.slots) (hr : s.Holds i g r)
    (hqueued : r.terminalActionQueued = false) (hpub : r.terminalPublicationDispatched = false) :
    s.queueTerminalAction r.id =
      { s.modifyRequest i (fun request => { request with terminalActionQueued := true }) with
        actions := s.actions ++ [.publishTerminal r.id r.state r.status
          (r.completedAtNs.getD r.submittedAtNs)] } := by
  unfold queueTerminalAction
  simp only [hr.validRequestIndex hslots, hr.requestAt, hqueued, hpub]
  rfl

theorem removeRequestFromPendingQueue_eq (hslots : Slots s.limits s.slots) (hr : s.Holds i g r) :
    s.removeRequestFromPendingQueue r.id = s.dequeue r.target r.id := by
  unfold removeRequestFromPendingQueue
  rw [hr.request hslots]

theorem conclude_book {targets : List TargetQueue} {diag : RequestRuntimeDiagnostics}
    (hslots : Slots s.book.limits s.book.slots) (hr : s.Holds i g r)
    (hqueued : r.terminalActionQueued = false) (hpub : r.terminalPublicationDispatched = false)
    (hdequeue : s.dequeue r.target r.id = { s with targets := targets, diagnostics := diag })
    (state : RequestState) (status : Status) (now : Nat) :
    ((((s.removeRequestFromPendingQueue r.id).removeRequestDeadline r.id).modifyRequest i
      (.concluded state status now)).queueTerminalAction r.id).book =
      { s.book.put i g (r.erase.finished state status now) with
        targets := targets
        actions := s.actions ++ [.publishTerminal r.id state status now]
        diagnostics := diag } := by
  have hbook : ((s.removeRequestFromPendingQueue r.id).removeRequestDeadline r.id).book =
      { s.book with targets := targets, diagnostics := diag } := by
    rw [book_removeRequestDeadline, removeRequestFromPendingQueue_eq (slots_of_book hslots) hr,
      hdequeue]
    rfl
  generalize (s.removeRequestFromPendingQueue r.id).removeRequestDeadline r.id = s' at hbook ⊢
  -- the deadline heap may have moved, which the book does not show
  obtain ⟨r', hr', herase⟩ : ∃ r', s'.Holds i g r' ∧ r'.erase = r.erase := by
    refine holds_of_book ?_
    rw [hbook]
    exact hr.book
  have hid : r'.id = r.id := by
    have herased := congrArg KernelRequest.id herase
    exact herased
  have hqueued' : r'.terminalActionQueued = false := by
    have herased := congrArg terminalActionQueued herase
    exact herased.trans hqueued
  have hpub' : r'.terminalPublicationDispatched = false := by
    have herased := congrArg terminalPublicationDispatched herase
    exact herased.trans hpub
  have hconcluded := hr'.modifyRequest (.concluded state status now)
  have hbook' := book_modifyRequest hr' (.concluded state status now)
  have hslots' : Slots (s'.modifyRequest i (.concluded state status now)).book.limits
      (s'.modifyRequest i (.concluded state status now)).book.slots := by
    have hname := hslots.id_eq hr.book
    rw [hbook', hbook]
    exact hslots.put hr.book (hid.trans hname)
  have hq := queueTerminalAction_eq (slots_of_book hslots') hconcluded hqueued' hpub'
  have hfinal := book_modifyRequest hconcluded fun request =>
    { request with terminalActionQueued := true }
  have hacts : s'.actions = s.actions := congrArg Book.actions hbook
  rw [hbook', put_put, hbook] at hfinal
  rw [← hid]
  refine (congrArg book hq).trans ?_
  calc book _
      _ = { ((s'.modifyRequest i (.concluded state status now)).modifyRequest i fun request =>
            { request with terminalActionQueued := true }).book with
          actions := s'.actions ++ [.publishTerminal r'.id state status now] } := rfl
      _ = { Book.put i g (r'.erase.finished state status now) { s.book with
              targets := targets
              diagnostics := diag } with
          actions := s'.actions ++ [.publishTerminal r'.id state status now] } := by
        rw [hfinal]
        rfl
      _ = _ := by
        rw [herase, hacts]
        rfl

theorem dequeue_modifyRequest (target : RequestTarget) (f : KernelRequest O P → KernelRequest O P) :
    (s.modifyRequest i f).dequeue target id = (s.dequeue target id).modifyRequest i f := by
  have htgt : (s.modifyRequest i f).targetIndex target = s.targetIndex target := rfl
  have htgts : (s.modifyRequest i f).targets = s.targets := rfl
  unfold dequeue
  rw [htgt]
  cases s.targetIndex target with
  | none => rfl
  | some index =>
    simp only [htgts]
    cases s.targets[index]? with
    | none => rfl
    | some queue =>
      simp only
      split <;> rfl

/-- A request ends, after a change of it that its end overwrites. -/
theorem finishTerminal_modifyRequest_follows (hinv : Inv s.book) (hr : s.Holds i g r)
    (hlive : isTerminal r.state = false) (status : Status) (now : Nat)
    (hterm : isTerminal state = true) (hlive' : isTerminal (f r).state = false)
    (hqueued' : (f r).terminalActionQueued = false)
    (hsame : (f r).erase.finished state status now = r.erase.finished state status now) :
    Follows e s ((s.modifyRequest i f).finishTerminal r.id state status now) := by
  have hid : (f r).id = r.id := by
    have heq := congrArg KernelRequest.id hsame
    exact heq
  have htgt : (f r).target = r.target := by
    have heq := congrArg target hsame
    exact heq
  have hpub' : (f r).terminalPublicationDispatched = false := by
    have heq := congrArg terminalPublicationDispatched hsame
    exact heq.trans ((hinv.sound _ ⟨i, g, hr.book⟩).unannounced hlive).2.1
  have hr' := hr.modifyRequest f
  have hslots' : Slots (s.modifyRequest i f).book.limits (s.modifyRequest i f).book.slots := by
    have hname := hinv.slots.id_eq hr.book
    rw [book_modifyRequest hr]
    exact hinv.slots.put hr.book (hid.trans hname)
  obtain ⟨targets, hdequeue, hreleased⟩ := dequeue_spec hinv hr hlive
  have hdequeue' : (s.modifyRequest i f).dequeue (f r).target (f r).id = { s.modifyRequest i f with
      targets := targets
      diagnostics := { s.diagnostics with
        queuedRequests := s.diagnostics.queuedRequests -
          if r.state = .pending then 1 else 0 } } := by
    rw [htgt, hid, dequeue_modifyRequest, hdequeue]
    rfl
  have hbook := conclude_book hslots' hr' hqueued' hpub' hdequeue' state status now
  have hvalid := hr'.validRequestIndex (slots_of_book hslots')
  rw [hsame, book_modifyRequest hr, put_put] at hbook
  rw [hid] at hbook hvalid
  unfold finishTerminal
  simp only [hvalid, hr'.requestAt, any_some, hlive']
  generalize queueTerminalAction r.id _ = s' at hbook ⊢
  have hfinish : Follows e s s' := by
    have hended := Silent.finish (e := e) state status now hr.book hlive hterm
    unfold Follows
    rw [hbook]
    rcases hreleased with rfl | ⟨j, queue, hq, hidle, rfl⟩
    · exact .single hended
    · exact .tail (.single hended) (.release hq hidle)
  exact (hfinish.andThen hinv releaseTargetIfSafe_follows).trans queueReleaseIfPossible_follows

theorem finishTerminal_follows (hinv : Inv s.book) (status : Status) (now : Nat)
    (hterm : isTerminal state = true) :
    Follows e s (s.finishTerminal id state status now) := by
  rcases s.lookup id with hnone | ⟨i, g, r, hr, rfl, hvalid, hat⟩
  · simp only [finishTerminal, hnone]
    exact .refl s
  by_cases hended : isTerminal r.state = true
  · simp only [finishTerminal, hvalid, hat, any_some, hended]
    exact .refl s
  · have hlive : isTerminal r.state = false := by simpa using hended
    have hqueued := ((hinv.sound _ ⟨i, g, hr.book⟩).unannounced hlive).1
    have hself : s.modifyRequest i (fun request => request) = s := by
      rw [modifyRequest_eq hr]
      obtain ⟨hlt, hget⟩ := List.getElem?_eq_some_iff.mp hr
      rw [← hget, set_getElem_self]
    have hfollows := finishTerminal_modifyRequest_follows (e := e) hinv hr hlive
      (f := fun request => request) status now hterm hlive hqueued rfl
    rwa [hself] at hfollows

theorem follows_note (hr : s.Holds i g r) (hf : (f r).erase = r.erase) :
    Follows e s (s.modifyRequest i f) :=
  .of_book_eq (book_modifyRequest_of_erase hr hf)

section

variable (hinv : Inv s.book)
include hinv

theorem applyTimeout_follows (now : Nat) : Follows e s (s.applyTimeout id now) := by
  rcases s.lookup id with hnone | ⟨i, g, r, hr, rfl, hvalid, hat⟩
  · simp only [applyTimeout, hnone]
    exact .refl s
  simp only [applyTimeout, hvalid]
  have hr1 := hr.modifyRequest fun request => { request with deadlineHeapIndex := none }
  have h1 : Follows e s (s.modifyRequest i fun request =>
      { request with deadlineHeapIndex := none }) := follows_note hr rfl
  simp only [hr1.requestAt]
  split
  · exact h1
  rename_i hlive
  rw [Bool.not_eq_true] at hlive
  have hr2 := hr1.modifyRequest fun request => { request with
    cancellationRequested := request.cancellationRequested || r.startedAtNs.isSome }
  have h2 := h1.trans (follows_note hr1 (f := fun request => { request with
    cancellationRequested := request.cancellationRequested || r.startedAtNs.isSome }) rfl)
  refine Follows.andThen hinv ?_ fun hinv' => finishTerminal_follows hinv' _ _ rfl
  split
  · exact h2.trans (queueCancelAction_follows (h2.inv hinv) hr2 hlive _)
  · exact h2

/-- A completion ends the request, and frees its resources if the device released them. -/
theorem complete_follows {completion : DeferredCompletion} (hr : s.Holds i g r)
    (hid : completion.id = r.id) (hlive : isTerminal r.state = false) (now : Nat)
    (hterm : isTerminal state = true) :
    Follows (.completed completion) s ((s.modifyRequest i fun request =>
      { request with
        state := .completing
        resourceState :=
          if completion.deviceReleased && request.resourceState.isDraining then .kernelOwned
          else if request.resourceState = .deviceOwned then .drainPending
          else request.resourceState }).finishTerminal completion.id state completion.status
        now) := by
  have hqueued := ((hinv.sound _ ⟨i, g, hr.book⟩).unannounced hlive).1
  rw [hid]
  by_cases hfreed : (completion.deviceReleased && r.resourceState.isDraining) = true
  · obtain ⟨hreleased, hdraining⟩ := Bool.and_eq_true_iff.mp hfreed
    have hr' := hr.modifyRequest fun request => { request with resourceState := .kernelOwned }
    have hfree := follows_modifyRequest (f := fun request =>
      { request with resourceState := .kernelOwned }) hr _ rfl
      (.free (e := .completed completion) ⟨hid, hreleased⟩ hdraining)
    refine hfree.andThen hinv fun hinv' => ?_
    have hfollows := finishTerminal_modifyRequest_follows (e := .completed completion) hinv' hr'
      (f := fun request => { request with state := .completing }) hlive completion.status now
      hterm rfl hqueued rfl
    rw [modifyRequest_modifyRequest hr] at hfollows
    refine (congrArg (Follows _ _) ?_).mp hfollows
    refine congrArg (finishTerminal _ _ _ _) (modifyRequest_congr hr ?_)
    simp only [if_pos hfreed]
  · refine finishTerminal_modifyRequest_follows hinv hr hlive completion.status now hterm
      rfl hqueued ?_
    simp only [if_neg hfreed]
    cases hresource : r.resourceState <;>
      simp [finished, concluded, erase, hresource]

theorem applyCompletion_follows (completion : DeferredCompletion) (now : Nat) :
    Follows (.completed completion) s (s.applyCompletion completion now) := by
  rcases s.lookup completion.id with hnone | ⟨i, g, r, hr, hid, hvalid, hat⟩
  · simp only [applyCompletion, hnone]
    exact .refl s
  simp only [applyCompletion, hvalid, hat]
  split
  · split
    · rename_i hterm hreleased
      refine (Follows.andThen hinv ?_ releaseTargetIfSafe_follows).trans
        queueReleaseIfPossible_follows
      by_cases hdraining : r.resourceState.isDraining = true
      · refine follows_modifyRequest hr { r.erase with resourceState := .kernelOwned } ?_
          (.free ⟨hid.symm, hreleased⟩ hdraining)
        simp only [if_pos hdraining]
        rfl
      · refine follows_note hr ?_
        simp only [if_neg hdraining]
    · exact .refl s
  · rename_i hlive
    rw [Bool.not_eq_true] at hlive
    have hterm : isTerminal (if completion.status = .ok then RequestState.completed
        else .failed) = true := by split <;> rfl
    by_cases hst : r.state = .cancelPending
    · -- a cancellation that is still queued has lost the race
      rw [if_pos hst]
      obtain ⟨queued, hr'⟩ := hr.removeCancelAction hinv
      rw [hid] at hr'
      have hremoved : Follows (.completed completion) s (s.removeCancelAction completion.id) :=
        removeCancelAction_follows
      exact hremoved.andThen hinv fun hinv' =>
        complete_follows hinv' hr' rfl hlive now hterm
    · rw [if_neg hst]
      exact complete_follows hinv hr hid.symm hlive now hterm

theorem requestCancel_follows (why : RequestCancelReason) (now : Nat) :
    Follows e s (s.requestCancel id why now).2 := by
  rcases s.lookup id with hnone | ⟨i, g, r, hr, rfl, hvalid, hat⟩
  · simp only [requestCancel, hnone]
    exact .refl s
  simp only [requestCancel, hvalid, hat]
  split
  · exact .refl s
  split
  · exact .refl s
  · rename_i hlive hnot
    rw [Bool.not_eq_true] at hlive
    have hr1 := hr.modifyRequest fun request => { request with cancellationRequested := true }
    have h1 : Follows e s (s.modifyRequest i fun request =>
        { request with cancellationRequested := true }) := follows_note hr rfl
    split
    · have h2 := h1.trans (follows_note hr1 (f := fun request =>
        { request with cancellationAcknowledged := true }) rfl)
      exact h2.andThen hinv fun hinv' => finishTerminal_follows hinv' _ _ rfl
    · rename_i hst
      have hact : r.state = .active := by
        rcases (hinv.sound _ ⟨i, g, hr.book⟩).state_cases with hp | (ha | hc) | ht
        · exact absurd hp hst
        · exact ha
        · exact absurd hc hnot
        · have hlive' : isTerminal r.erase.state = false := hlive
          rw [ht] at hlive'
          cases hlive'
      have hr2 := hr1.modifyRequest fun request => { request with state := .cancelPending }
      have h2 := h1.trans (follows_modifyRequest (f := fun request =>
        { request with state := .cancelPending }) hr1 _ rfl (.cancelPending hact))
      exact h2.trans (queueCancelAction_follows (h2.inv hinv) hr2 rfl why)

theorem acknowledgeCancel_follows (now : Nat) (stopped : Bool) :
    Follows (.cancelAcknowledged id stopped) s (s.acknowledgeCancel id now stopped).2 := by
  rcases s.lookup id with hnone | ⟨i, g, r, hr, rfl, hvalid, hat⟩
  · simp only [acknowledgeCancel, hnone]
    exact .refl s
  simp only [acknowledgeCancel, hvalid, hat]
  split
  · exact .refl s
  have h1 : Follows (.cancelAcknowledged r.id stopped) s (s.modifyRequest i fun request =>
      { request with
        cancellationAcknowledged := true
        resourceState :=
          if stopped && request.resourceState.isDraining then .kernelOwned
          else request.resourceState }) := by
    by_cases hfreed : (stopped && r.resourceState.isDraining) = true
    · obtain ⟨hstopped, hdraining⟩ := Bool.and_eq_true_iff.mp hfreed
      refine follows_modifyRequest hr { r.erase with resourceState := .kernelOwned } ?_
        (.free ⟨rfl, hstopped⟩ hdraining)
      simp only [if_pos hfreed]
      rfl
    · refine follows_note hr ?_
      simp only [if_neg hfreed]
      rfl
  split
  · exact h1.andThen hinv fun hinv' => finishTerminal_follows hinv' _ _ rfl
  · exact h1.trans queueReleaseIfPossible_follows

theorem acknowledgeDrain_follows : Follows (.drained id) s (s.acknowledgeDrain id).2 := by
  rcases s.lookup id with hnone | ⟨i, g, r, hr, rfl, hvalid, hat⟩
  · simp only [acknowledgeDrain, hnone]
    exact .refl s
  simp only [acknowledgeDrain, hvalid, hat]
  split
  · exact .refl s
  rename_i hdraining
  simp only [Bool.not_eq_true', Bool.not_eq_false] at hdraining
  have h1 := follows_modifyRequest (f := fun request =>
    { request with resourceState := .kernelOwned }) hr _ rfl
    (.free (e := .drained r.id) rfl hdraining)
  exact (h1.andThen hinv releaseTargetIfSafe_follows).trans queueReleaseIfPossible_follows

end

theorem sweep_follows {visit : Nat → RequestRuntime O P → Bool × RequestRuntime O P}
    (hvisit : ∀ index s, Inv s.book → Follows e s (visit index s).2) (indices : List Nat)
    (s : RequestRuntime O P) (hinv : Inv s.book) : Follows e s (sweep visit indices s).2 := by
  induction indices generalizing s with
  | nil => exact .refl s
  | cons index rest ih => exact (hvisit index s hinv).andThen hinv (ih _)

variable (hinv : Inv s.book)
include hinv

theorem requestAt_cases (index : Nat) :
    s.requestAt index = none ∨ ∃ g r, s.Holds index g r ∧ s.requestAt index = some r := by
  cases hat : s.requestAt index with
  | none => exact .inl rfl
  | some r =>
    obtain ⟨slot, hslot, hreq⟩ := bind_eq_some_iff.mp hat
    have hret := ((slots_of_book hinv.slots).named index slot r hslot hreq).1
    unfold Holds
    cases slot
    simp_all

theorem terminateAt_follows (selects : KernelRequest O P → Bool)
    (why : RequestCancelReason) (now index : Nat) :
    Follows e s (terminateAt selects why now index s).2 := by
  rcases requestAt_cases hinv index with hnone | ⟨g, r, hr, hat⟩
  · simp only [terminateAt, hnone]
    exact .refl s
  simp only [terminateAt, hat]
  split
  · exact .refl s
  rename_i hchecks
  simp only [Bool.or_eq_true, not_or, Bool.not_eq_true] at hchecks
  have hr1 := hr.modifyRequest fun request => { request with cancellationRequested := true }
  have h1 : Follows e s (s.modifyRequest index fun request =>
      { request with cancellationRequested := true }) := follows_note hr rfl
  refine Follows.andThen hinv ?_ fun hinv' => finishTerminal_follows hinv' _ _ rfl
  split
  · exact h1.trans (queueCancelAction_follows (h1.inv hinv) hr1 hchecks.2 why)
  · exact h1.trans (follows_note hr1 rfl)

theorem failAt_follows (device : RequestDevice) (now : Nat) (stopped : Bool) (index : Nat) :
    Follows (.deviceFailed device stopped) s (failAt device now stopped index s).2 := by
  rcases requestAt_cases hinv index with hnone | ⟨g, r, hr, hat⟩
  · simp only [failAt, hnone]
    exact .refl s
  simp only [failAt, hat]
  split
  · exact .refl s
  split
  · exact .refl s
  rename_i hdev _
  rw [not_not] at hdev
  obtain ⟨queued, hr1⟩ := hr.removeCancelAction hinv
  have h1 : Follows (.deviceFailed device stopped) s (s.removeCancelAction r.id) :=
    removeCancelAction_follows
  have h2 : Follows (.deviceFailed device stopped) s
      (if (stopped && r.resourceState.isDraining) = true then
        (s.removeCancelAction r.id).modifyRequest index fun request =>
          { request with resourceState := .kernelOwned }
      else s.removeCancelAction r.id) := by
    split
    · rename_i hfreed
      obtain ⟨hstopped, hdraining⟩ := Bool.and_eq_true_iff.mp hfreed
      exact h1.trans (follows_modifyRequest hr1 _ rfl (.free ⟨hdev, hstopped⟩ hdraining))
    · exact h1
  split
  · exact (h2.andThen hinv releaseTargetIfSafe_follows).trans queueReleaseIfPossible_follows
  · exact h2.andThen hinv fun hinv' => finishTerminal_follows hinv' _ _ rfl

theorem shutdownAt_follows (now index : Nat) : Follows e s (shutdownAt now index s).2 := by
  unfold shutdownAt
  split
  · exact .refl s
  · split
    · exact requestCancel_follows hinv _ _
    · exact .refl s

end RequestRuntime

end Ginkgo.Kernel.Request
