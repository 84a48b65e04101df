import Ginkgo.Kernel.Request.Refinement

/-!
# Calls as events of the book

Each call of the runtime emits events, and the book takes the steps of these events.
-/

namespace Ginkgo.Kernel.Request

open Ginkgo.Lib Ginkgo.Sysapi List RequestRuntime Option

namespace RequestRuntime

variable {O P : Type} {s s' : RequestRuntime O P} {i g j : Nat} {r : KernelRequest O P}
  {e : Event O P} {id : RequestId}

/-! ## Retirement -/

theorem mem_active_modifyTarget {f : TargetQueue → TargetQueue}
    (hf : ∀ q : TargetQueue, (f q).active = q.active) {active : Option RequestId}
    (h : ∃ q ∈ (s.modifyTarget j f).targets, q.active = active) :
    ∃ q ∈ s.targets, q.active = active := by
  obtain ⟨q, hmem, hact⟩ := h
  obtain ⟨k, hk⟩ := mem_iff_getElem?.mp hmem
  unfold modifyTarget at hk
  rw [getElem?_modify] at hk
  obtain ⟨before, hbef, heq⟩ := map_eq_some_iff.mp hk
  refine ⟨before, mem_of_getElem? hbef, ?_⟩
  rw [← hact, ← heq]
  split
  · rw [hf]
  · rfl

theorem slots_clearActive (started : Bool) : (s.clearActive j id started).slots = s.slots := by
  unfold clearActive
  split
  · split <;> rfl
  · rfl

theorem mem_active_clearActive {started : Bool} {queue : TargetQueue}
    (hmem : queue ∈ (s.clearActive j id started).targets) (hact : queue.active = some id) :
    ∃ k, k ≠ j ∧ s.targets[k]? = some queue := by
  obtain ⟨k, hk⟩ := mem_iff_getElem?.mp hmem
  unfold clearActive at hk
  split at hk
  · have hmodified : (s.modifyTarget j fun queue => { queue with active := none }).targets[k]? =
        some queue := by
      split at hk <;> exact hk
    unfold modifyTarget at hmodified
    rw [getElem?_modify] at hmodified
    obtain ⟨before, hbef, heq⟩ := map_eq_some_iff.mp hmodified
    split at heq
    · rw [← heq] at hact
      cases hact
    · rename_i hne
      exact ⟨k, Ne.symm hne, heq ▸ hbef⟩
  · rename_i hnot
    refine ⟨k, ?_, hk⟩
    rintro rfl
    exact hnot (by simp [hk, hact])

/-- The queue of its target no longer names a request that is gone. -/
theorem releaseTargetAfterRetirement_spec (hinv : Inv s.book) (hr : s.Holds i g r)
    (hterm : isTerminal r.state = true) :
    Follows e s (s.releaseTargetAfterRetirement r) ∧
      ∀ q ∈ (s.releaseTargetAfterRetirement r).targets, q.active ≠ some r.id := by
  have hheld : s.book.Live r.erase := ⟨i, g, hr.book⟩
  have hnamed : ∀ k q, s.targets[k]? = some q →
      q.active = some r.id → s.targetIndex r.target = some k := by
    intro k q hk hact
    have hlane := hinv.lanes.lane k q hk
    obtain ⟨-, -, hname⟩ := hlane.name_of_active hinv.unique hheld hact
    exact targetIndex_of_name hinv hk hname
  unfold releaseTargetAfterRetirement
  cases hfound : s.targetIndex r.target with
  | none =>
    refine ⟨.refl s, fun q hmem hact => ?_⟩
    obtain ⟨k, hk⟩ := mem_iff_getElem?.mp hmem
    have hsome := hnamed k q hk hact
    rw [hfound] at hsome
    cases hsome
  | some j =>
    simp only
    have hcleared := clearActive_follows (e := e) (j := j) hinv hr hterm
    have hinv' := hcleared.inv hinv
    have hheld' : (s.clearActive j r.id r.startedAtNs.isSome).Holds i g r := by
      unfold Holds
      rw [slots_clearActive]
      exact hr
    -- nothing is queued for a request that has ended
    have hself : (s.clearActive j r.id r.startedAtNs.isSome).modifyTarget j (fun q =>
        { q with queued := q.queued.filter fun other => other ≠ r.id }) =
        s.clearActive j r.id r.startedAtNs.isSome := by
      refine modifyTarget_self fun q hq => ?_
      have hfilter : q.queued.filter (fun other => other ≠ r.id) = q.queued := by
        rw [filter_eq_self]
        intro x hx
        rw [decide_eq_true_eq]
        rintro rfl
        have hst := ((hinv'.lanes.lane j q hq).name_of_queued hinv'.unique ⟨i, g, hheld'.book⟩ hx).1
        have hended : isTerminal r.erase.state = true := hterm
        rw [hst] at hended
        cases hended
      simp only [hfilter]
    rw [hself]
    refine ⟨hcleared.trans releaseIdleTarget_follows, fun q hmem hact => ?_⟩
    obtain ⟨before, hbef, hact'⟩ := mem_active_modifyTarget
      (fun q => by split <;> rfl) ⟨q, hmem, hact⟩
    obtain ⟨k, hne, hk⟩ := mem_active_clearActive hbef hact'
    have hsome := hnamed k before hk hact'
    rw [hfound] at hsome
    exact hne (some.inj hsome).symm

theorem clearActive_withSlots (slots : List (RequestSlot O P)) (started : Bool) :
    clearActive j id started { s with slots := slots } =
      { clearActive j id started s with slots := slots } := by
  unfold clearActive
  by_cases hact : ((s.targets[j]?).bind (·.active)) = some id
  · simp only [hact]
    cases started <;> rfl
  · simp only [hact, if_false]

theorem releaseTargetAfterRetirement_withSlots (slots : List (RequestSlot O P)) :
    releaseTargetAfterRetirement r { s with slots := slots } =
      { releaseTargetAfterRetirement r s with slots := slots } := by
  have hfound : { s with slots := slots }.targetIndex r.target =
      s.targetIndex r.target := rfl
  unfold releaseTargetAfterRetirement
  rw [hfound]
  cases s.targetIndex r.target with
  | none => rfl
  | some index =>
    simp only [clearActive_withSlots]
    rfl

theorem slots_releaseTargetAfterRetirement :
    (releaseTargetAfterRetirement r s).slots = s.slots := by
  unfold releaseTargetAfterRetirement
  split
  · rfl
  · exact slots_clearActive _

theorem request_clear (hinv : Inv s.book) (hr : s.Holds i g r) :
    request r.id { s with slots := s.slots.modify i fun slot => { slot with request := none } } =
      none := by
  rw [modify_eq_set hr]
  generalize hs : { s with slots := s.slots.set i _ } = s'
  unfold request
  rcases s'.lookup r.id with hnone | ⟨i', g', r', hr', hid, -, -⟩
  · rw [hnone]
    rfl
  exfalso
  rw [← hs] at hr'
  have hslots := slots_of_book hinv.slots
  rcases (getElem?_set_iff hr _ _ _).mp hr' with ⟨-, heq⟩ | ⟨hne, hr'⟩
  · cases heq
  have hname := (hslots.named i' _ r' hr' rfl).2
  rw [hid, (hslots.named i _ r hr rfl).2] at hname
  have hlt := hinv.slots.index_lt hr.book
  have hlt' := hinv.slots.index_lt (Holds.book hr')
  exact hne (RequestId.fromParts_inj hlt hlt' hname).1.symm

theorem modify_vacated (hr : s.Holds i g r) :
    (s.slots.modify i fun slot => { slot with request := none }).modify i (fun slot =>
        if slot.generation + 1 ≤ u32Max then { slot with generation := slot.generation + 1 }
        else { slot with retired := true }) = s.slots.set i (.vacated g) := by
  have hcleared : (s.slots.set i ⟨g, false, none⟩)[i]? = some ⟨g, false, none⟩ :=
    (getElem?_set_iff hr _ _ _).mpr (.inl ⟨rfl, rfl⟩)
  rw [modify_eq_set hr, modify_eq_set hcleared, set_set]
  rfl

theorem tryRetire_eq (hinv : Inv s.book) (hr : s.Holds i g r) (hretirable : retirable r = true) :
    s.tryRetire r.id = { s.releaseTargetAfterRetirement r with
      slots := s.slots.set i (.vacated g)
      diagnostics := { (s.releaseTargetAfterRetirement r).diagnostics with
        liveRequests := (s.releaseTargetAfterRetirement r).diagnostics.liveRequests - 1 } } := by
  have hddl := request_clear hinv hr
  have hself : removeRequestDeadline r.id { s with slots := s.slots.modify i fun slot =>
      { slot with request := none } } = { s with slots := s.slots.modify i fun slot =>
      { slot with request := none } } := by
    unfold removeRequestDeadline
    rw [hddl]
    rfl
  unfold tryRetire
  rw [hr.validRequestIndex (slots_of_book hinv.slots)]
  simp only [hr.requestAt, hretirable, Bool.not_true, Bool.false_eq_true, if_false]
  rw [hself, releaseTargetAfterRetirement_withSlots, ← modify_vacated hr]

theorem erase_vacated (g : Nat) :
    RequestSlot.erase (.vacated g : RequestSlot O P) = .vacated g := by
  unfold RequestSlot.vacated
  split <;> rfl

theorem tryRetire_follows (hinv : Inv s.book) : Follows e s (s.tryRetire id) := by
  rcases s.lookup id with hnone | ⟨i, g, r, hr, rfl, hvalid, hat⟩
  · simp only [tryRetire, hnone]
    exact .refl s
  cases hretirable : retirable r with
  | false =>
    simp only [tryRetire, hvalid, hat, hretirable]
    exact .refl s
  | true =>
    have hterm : isTerminal r.state = true := by
      simp only [retirable, Bool.and_eq_true] at hretirable
      exact hretirable.1.1.1.1.1
    obtain ⟨hreleased, hidle⟩ := releaseTargetAfterRetirement_spec hinv hr hterm
    have hheld : (s.releaseTargetAfterRetirement r).Holds i g r := by
      unfold Holds
      rw [slots_releaseTargetAfterRetirement]
      exact hr
    refine Relation.ReflTransGen.tail hreleased ?_
    have hretire := Silent.retire (e := e) hheld.book hretirable hidle
    have hslots : (s.slots.set i (.vacated g)).map RequestSlot.erase =
        (s.releaseTargetAfterRetirement r).book.slots.set i (.vacated g) := by
      rw [map_set, erase_vacated]
      simp only [book, slots_releaseTargetAfterRetirement]
    rw [← hslots] at hretire
    rw [tryRetire_eq hinv hr hretirable]
    exact hretire

/-! ## Calls -/

end RequestRuntime

inductive Op (O P : Type)
  | submit (submission : RequestSubmission O P) (nowNs : Nat)
  | submitBatch (submissions : List (RequestSubmission O P)) (outputLength nowNs : Nat)
  | nextDispatch (nowNs : Nat)
  | requeueActive (id : RequestId)
  | markDeviceOwned (id : RequestId)
  | recordCompletion (completion : DeferredCompletion)
  | runWorker (nowNs : Nat) (budget : RequestWorkerBudget)
  | cancel (id : RequestId) (nowNs : Nat)
  | acknowledgeCancel (id : RequestId) (nowNs : Nat) (deviceStopped : Bool)
  | acknowledgeDrain (id : RequestId)
  | terminateThread (owner : RequestOwner) (nowNs : Nat)
  | terminateProcess (processId nowNs : Nat)
  | removeDevice (device : RequestDevice) (nowNs : Nat) (ownershipStopped : Bool)
  | resetDevice (device : RequestDevice) (nowNs : Nat)
  | beginShutdown (nowNs : Nat)
  | resumeAfterShutdownCancel
  | nextAction
  | acknowledgeResourceRelease (id : RequestId)

/-- The call does not submit. -/
def Op.IsOrdinary {O P : Type} : Op O P → Prop
  | .submit .. | .submitBatch .. => False
  | _ => True

namespace RequestRuntime

variable {O P : Type} {s s' : RequestRuntime O P} {i g j : Nat} {r : KernelRequest O P}
  {e : Event O P} {id : RequestId} {error : RequestError}

/-- A call that fails is not an event. -/
def onOk {α : Type} (result : Except RequestError α) (events : α → List (Event O P)) :
    List (Event O P) :=
  match result with
  | .ok value => events value
  | .error _ => []

theorem forall_onOk {Q : Event O P → Prop} {result : Except RequestError Unit}
    {e : Event O P} (h : Q e) : ∀ e' ∈ onOk result fun _ => [e], Q e' := by
  intro e' he'
  cases result with
  | error error => cases he'
  | ok value => exact mem_singleton.mp he' ▸ h

def submitted (submissions : List (RequestSubmission O P)) (ids : List RequestId) :
    List (Event O P) := (ids.zip submissions).map fun (id, submission) => .submitted id submission

/-- One call, with the events it emits. -/
def exec : Op O P → RequestRuntime O P → List (Event O P) × RequestRuntime O P
  | .submit submission nowNs, s =>
    let (result, s) := s.submit submission nowNs
    (onOk result (submitted [submission]), s)
  | .submitBatch submissions outputLength nowNs, s =>
    let (result, s) := s.submitBatch submissions outputLength nowNs
    (onOk result (submitted submissions), s)
  | .nextDispatch nowNs, s =>
    let (dispatch, s) := s.nextDispatch nowNs
    (.polled :: dispatch.toList.map fun dispatch => .dispatched dispatch.id, s)
  | .requeueActive id, s =>
    let (result, s) := s.requeueActive id
    (onOk result fun _ => [.requeued id], s)
  | .markDeviceOwned id, s =>
    let (result, s) := s.markDeviceOwned id
    (onOk result fun _ => [.owned id], s)
  | .recordCompletion completion, s => ([], (s.recordCompletion completion).2)
  | .runWorker nowNs budget, s =>
    let (report, s') := s.runWorker nowNs budget
    ((drainCompletions nowNs budget.completions s).1.map .completed ++
      replicate report.deadlines .expired, s')
  | .cancel id nowNs, s =>
    let (result, s) := s.cancel id nowNs
    (onOk result fun _ => [.canceled id], s)
  | .acknowledgeCancel id nowNs deviceStopped, s =>
    let (result, s) := s.acknowledgeCancel id nowNs deviceStopped
    (onOk result fun _ => [.cancelAcknowledged id deviceStopped], s)
  | .acknowledgeDrain id, s =>
    let (result, s) := s.acknowledgeDrain id
    (onOk result fun _ => [.drained id], s)
  | .terminateThread owner nowNs, s => ([.terminated], (s.terminateThread owner nowNs).2)
  | .terminateProcess processId nowNs, s =>
    ([.terminated], (s.terminateProcess processId nowNs).2)
  | .removeDevice device nowNs ownershipStopped, s =>
    ([.deviceFailed device ownershipStopped], (s.removeDevice device nowNs ownershipStopped).2)
  | .resetDevice device nowNs, s =>
    ([.deviceFailed device true], (s.resetDevice device nowNs).2)
  | .beginShutdown nowNs, s => ([.shutdown], (s.beginShutdown nowNs).2)
  | .resumeAfterShutdownCancel, s => ([], s.resumeAfterShutdownCancel)
  | .nextAction, s =>
    let (action, s) := s.nextAction
    (action.toList.map .action, s)
  | .acknowledgeResourceRelease id, s =>
    let (result, s) := s.acknowledgeResourceRelease id
    (onOk result fun _ => [.released id], s)

theorem step_of_follows (he : e.IsPassive) (h : Follows e s s') : Book.Step s.book [e] s'.book :=
  .intro (.observe he) h

theorem step_of_visible {b : Book O P} (h : Visible s.book e b) (hbook : s'.book = b) :
    Book.Step s.book [e] s'.book := by
  rw [hbook]
  exact .intro h .refl

/-- A call that fails changes nothing; otherwise it is one event. -/
theorem star_onOk {result : Except RequestError Unit}
    (herr : ∀ error, result = .error error → s' = s)
    (hok : result = .ok () → Book.Step s.book [e] s'.book) :
    Star Book.Step s.book (onOk result fun _ => [e]) s'.book := by
  cases result with
  | error error =>
    rw [herr error rfl]
    exact .refl _
  | ok value => exact .single (hok rfl)

theorem requestCancel_error {why : RequestCancelReason} {now : Nat}
    (h : (s.requestCancel id why now).1 = .error error) :
    (s.requestCancel id why now).2 = s := by
  revert h
  fun_cases requestCancel id why now s <;> simp_all

theorem acknowledgeCancel_error {now : Nat} {stopped : Bool}
    (h : (s.acknowledgeCancel id now stopped).1 = .error error) :
    (s.acknowledgeCancel id now stopped).2 = s := by
  revert h
  fun_cases acknowledgeCancel id now stopped s <;> simp_all

theorem acknowledgeDrain_error (h : (s.acknowledgeDrain id).1 = .error error) :
    (s.acknowledgeDrain id).2 = s := by
  revert h
  fun_cases acknowledgeDrain id s <;> simp_all

theorem requeueActive_error (h : (s.requeueActive id).1 = .error error) :
    (s.requeueActive id).2 = s := by
  revert h
  fun_cases requeueActive id s <;> simp_all

theorem markDeviceOwned_error (h : (s.markDeviceOwned id).1 = .error error) :
    (s.markDeviceOwned id).2 = s := by
  revert h
  fun_cases markDeviceOwned id s <;> simp_all

theorem acknowledgeResourceRelease_error (h : (s.acknowledgeResourceRelease id).1 = .error error) :
    (s.acknowledgeResourceRelease id).2 = s := by
  revert h
  fun_cases acknowledgeResourceRelease id s <;> simp_all

theorem holds_of_valid (hvalid : s.validRequestIndex id = some i) (hat : s.requestAt i = some r) :
    r.id = id ∧ ∃ g, s.Holds i g r := by
  rcases s.lookup id with hnone | ⟨i', g, r', hr, hid, hvalid', hat'⟩
  · rw [hvalid] at hnone
    cases hnone
  rw [hvalid] at hvalid'
  obtain rfl := some.inj hvalid'
  rw [hat] at hat'
  obtain rfl := some.inj hat'
  exact ⟨hid, g, hr⟩

theorem requeueActive_step (hinv : Inv s.book) (h : (s.requeueActive id).1 = .ok ()) :
    Book.Step s.book [.requeued id] (s.requeueActive id).2.book := by
  revert h
  fun_cases requeueActive id s with
  | case6 i hvalid r hat hchecks j hfound hact s1 s2 =>
    intro _
    obtain ⟨rfl, g, hr⟩ := holds_of_valid hvalid hat
    simp only [Bool.or_eq_true, decide_eq_true_eq, not_or, not_not] at hchecks hact
    obtain ⟨queue, hq, hact⟩ := bind_eq_some_iff.mp hact
    have hq1 : s1.targets[j]? = some queue := hq
    have hcnt : saturatingAdd s.diagnostics.queuedRequests 1 =
        s.diagnostics.queuedRequests + 1 := saturatingAdd_one hinv.queued_lt
    have hrequeue := Visible.requeue hr.book hchecks.1 hchecks.2 hq hact
    refine step_of_visible hrequeue ?_
    simp only [s2, modifyTarget_eq hq1]
    calc book _
        _ = { s1.book with
            targets := s.targets.set j { queue with
              active := none
              queued := queue.queued ++ [r.id] }
            diagnostics := { s.diagnostics with
              activeRequests := s.diagnostics.activeRequests - 1
              queuedRequests := saturatingAdd s.diagnostics.queuedRequests 1 } } := rfl
        _ = _ := by
          rw [book_modifyRequest hr, hcnt]
          rfl
  | _ => simp

theorem markDeviceOwned_step (h : (s.markDeviceOwned id).1 = .ok ()) :
    Book.Step s.book [.owned id] (s.markDeviceOwned id).2.book := by
  revert h
  fun_cases markDeviceOwned id s with
  | case4 i hvalid r hat hchecks =>
    intro _
    obtain ⟨rfl, g, hr⟩ := holds_of_valid hvalid hat
    simp only [Bool.or_eq_true, Bool.not_eq_true', Bool.or_eq_false_iff, decide_eq_false_iff_not,
      decide_eq_true_eq, not_or, not_not, not_and_or] at hchecks
    have hown := Visible.own hr.book hchecks.1 hchecks.2
    have hbook := book_modifyRequest hr fun request =>
      { request with resourceState := .deviceOwned }
    exact step_of_visible hown hbook
  | _ => simp

theorem book_acknowledge (hr : s.Holds i g r) :
    ((s.modifyRequest i fun request => { request with resourceState := .released })
      |>.unchargeResources r.resources).book =
      { s.book.put i g { r.erase with resourceState := .released } with
        diagnostics := { s.diagnostics with
          resources := s.diagnostics.resources.saturatingSub r.resources } } := by
  have hmodified := book_modifyRequest hr fun request =>
    { request with resourceState := .released }
  calc book _
      _ = { (s.modifyRequest i fun request => { request with resourceState := .released }).book with
          diagnostics := { s.diagnostics with
            resources := s.diagnostics.resources.saturatingSub r.resources } } := rfl
      _ = _ := by
        rw [hmodified]
        rfl

theorem acknowledgeResourceRelease_step (hinv : Inv s.book)
    (h : (s.acknowledgeResourceRelease id).1 = .ok ()) :
    Book.Step s.book [.released id] (s.acknowledgeResourceRelease id).2.book := by
  revert h
  fun_cases acknowledgeResourceRelease id s with
  | case5 i hvalid r hat hdisp howed s1 s2 =>
    intro _
    obtain ⟨rfl, g, hr⟩ := holds_of_valid hvalid hat
    simp only [Bool.not_eq_true', Bool.not_eq_false] at hdisp
    have hack := Visible.acknowledge hr.book hdisp howed
    have hack' : Visible s.book (.released r.id) s2.book := by
      rw [show s2.book = _ from book_acknowledge hr]
      exact hack
    exact .intro hack' (tryRetire_follows (hinv.visible hack'))
  | _ => simp

/-- The action at the head of the queue is taken, and its request may be retired. -/
theorem nextAction_cons (hinv : Inv s.book) {act : RequestAction} {rest : List RequestAction}
    (hacts : s.actions = act :: rest) :
    s.nextAction.1 = some act ∧ ∃ i g r, s.book.Holds i g r ∧ act.Describes r ∧
      Visible s.book (.action act) { s.book.put i g (dispatchAction act r) with actions := rest } ∧
      Relation.ReflTransGen (Silent (.action act))
        { s.book.put i g (dispatchAction act r) with actions := rest } s.nextAction.2.book := by
  have hmem : act ∈ s.book.actions := by
    change act ∈ s.actions
    rw [hacts]
    exact mem_cons_self
  obtain ⟨r', ⟨i, g, hr'⟩, hdesc⟩ := hinv.outbox.described act hmem
  obtain ⟨r, hr, rfl⟩ := holds_of_book hr'
  have hid : act.id = r.id := hdesc.id_eq
  have hrest : { s with actions := rest }.Holds i g r := hr
  have hvalid : { s with actions := rest }.validRequestIndex act.id =
      some i := by
    rw [hid]
    exact hr.validRequestIndex (slots_of_book hinv.slots)
  have hpop := Visible.pop hr' hacts hid
  have hbook : (modifyRequest i (dispatchAction act) { s with actions := rest }).book =
      { s.book.put i g (dispatchAction act r.erase) with actions := rest } := by
    rw [book_modifyRequest hrest]
    cases act <;> rfl
  unfold nextAction
  simp only [hacts, hvalid]
  refine ⟨trivial, i, g, r.erase, hr', hdesc, hpop, ?_⟩
  rw [← hbook] at hpop ⊢
  exact tryRetire_follows (hinv.visible hpop)

theorem nextAction_step (hinv : Inv s.book) :
    Star Book.Step s.book (s.nextAction.1.toList.map .action) s.nextAction.2.book := by
  cases hacts : s.actions with
  | nil =>
    unfold nextAction
    simp only [hacts]
    exact .refl _
  | cons act rest =>
    obtain ⟨hsome, i, g, r, -, -, hvis, hsilent⟩ := nextAction_cons hinv hacts
    rw [hsome]
    exact .single (.intro hvis hsilent)

/-- Idle targets may be released before a request is started. -/
def Dispatches (s : RequestRuntime O P)
    (result : Option (RequestDispatch O P) × RequestRuntime O P) : Prop :=
  match result.1 with
  | none => Follows .polled s result.2
  | some dispatch => ∃ m, Follows .polled s m ∧
      Visible m.book (.dispatched dispatch.id) result.2.book

theorem Dispatches.after {result : Option (RequestDispatch O P) × RequestRuntime O P}
    (hresult : Dispatches s' result) (h : Follows .polled s s') : Dispatches s result := by
  obtain ⟨dispatch, s''⟩ := result
  cases dispatch with
  | none => exact h.trans hresult
  | some dispatch =>
    obtain ⟨m, hm, hvis⟩ := hresult
    exact ⟨m, h.trans hm, hvis⟩

theorem start_visible (hinv : Inv s.book) {q : TargetQueue} {rest : List RequestId}
    (hq : s.targets[j]? = some q) (hact : q.active = none)
    (hqueued : q.queued = r.id :: rest) (hr : s.Holds i g r) (hst : r.state = .pending)
    (now : Nat) : Visible s.book (.dispatched r.id) ((s.modifyTarget j fun q =>
      { q with queued := rest }).start j i r.id now).book := by
  have hdisp := Visible.dispatch now hr.book hst hq hact hqueued
  have hcnt : saturatingAdd s.diagnostics.activeRequests 1 = s.diagnostics.activeRequests + 1 :=
    saturatingAdd_one hinv.active_lt
  have hpopped : (s.targets.set j { q with queued := rest })[j]? = some { q with queued := rest } :=
    (getElem?_set_iff hq _ _ _).mpr (.inl ⟨rfl, rfl⟩)
  have htgts : (s.targets.modify j fun q => { q with queued := rest }).modify j
      (fun q => { q with active := some r.id }) =
      s.targets.set j { q with active := some r.id, queued := rest } := by
    rw [modify_eq_set hq, modify_eq_set hpopped, set_set]
  have hbook := book_modifyRequest hr fun request => { request with
    state := .active
    startedAtNs := request.startedAtNs.or (some now) }
  refine (congrArg (Visible s.book _) ?_).mpr hdisp
  calc book _
      _ = { (s.modifyRequest i fun request => { request with
              state := .active
              startedAtNs := request.startedAtNs.or (some now) }).book with
          targets := (s.targets.modify j fun q => { q with queued := rest }).modify j
            fun q => { q with active := some r.id }
          diagnostics := { s.diagnostics with
            queuedRequests := s.diagnostics.queuedRequests - 1
            activeRequests := saturatingAdd s.diagnostics.activeRequests 1 } } := rfl
      _ = _ := by
        rw [hbook, htgts, hcnt]
        rfl

theorem nextDispatchFrom_dispatches (rounds now : Nat) (s : RequestRuntime O P)
    (hinv : Inv s.book) : Dispatches s (nextDispatchFrom rounds now s) := by
  induction rounds generalizing s with
  | zero => exact Follows.refl s
  | succ rounds ih =>
    unfold nextDispatchFrom
    -- the cursor is not in the book
    generalize hs' : { s with targetCursor := (s.targetCursor + 1) % s.targets.length } = s'
    have hfollows : Follows .polled s s' := by
      rw [← hs']
      exact .of_book_eq rfl
    have hinv' := hfollows.inv hinv
    refine Dispatches.after ?_ hfollows
    dsimp only
    split
    · exact ih s' hinv'
    rename_i q hq
    split
    · exact ih s' hinv'
    rename_i hact
    split
    · have hreleased : Follows .polled s' (s'.releaseIdleTarget s.targetCursor) :=
        releaseIdleTarget_follows
      exact (ih _ (hreleased.inv hinv')).after hreleased
    rename_i id rest hqueued
    have hmem : id ∈ q.queued := by
      rw [hqueued]
      exact mem_cons_self
    have hlane := hinv'.lanes.lane s.targetCursor q hq
    obtain ⟨r', ⟨i, g, hr'⟩, hid, hst, -⟩ := (hlane.queued_iff id).mp hmem
    obtain ⟨r, hr, rfl⟩ := holds_of_book hr'
    obtain rfl : r.id = id := hid
    have hvalid : (s'.modifyTarget s.targetCursor fun q =>
        { q with queued := rest }).validRequestIndex r.id = some i :=
      hr.validRequestIndex (slots_of_book hinv'.slots)
    have hat : (s'.modifyTarget s.targetCursor fun q =>
        { q with queued := rest }).requestAt i = some r := hr.requestAt
    have hpend : ¬r.state ≠ .pending := not_not.mpr hst
    simp only [hvalid, hat, if_neg hpend]
    exact ⟨s', .refl s', start_visible hinv' hq (by simpa using hact) hqueued hr hst now⟩

theorem nextDispatch_star (hinv : Inv s.book) (now : Nat) : Star Book.Step s.book
      (.polled :: (s.nextDispatch now).1.toList.map fun dispatch => .dispatched dispatch.id)
      (s.nextDispatch now).2.book := by
  have hdispatches := nextDispatchFrom_dispatches s.targets.length now s hinv
  unfold nextDispatch
  generalize nextDispatchFrom s.targets.length now s = result at hdispatches ⊢
  obtain ⟨dispatch, s'⟩ := result
  cases dispatch with
  | none => exact .single (step_of_follows trivial hdispatches)
  | some dispatch =>
    obtain ⟨m, hm, hvis⟩ := hdispatches
    have hpolled : Book.Step s.book [.polled] m.book := step_of_follows trivial hm
    exact (Star.single hpolled).tail (.intro hvis .refl)

theorem drainCompletions_star (now budget : Nat) (s : RequestRuntime O P) (hinv : Inv s.book) :
    Star Book.Step s.book ((drainCompletions now budget s).1.map .completed)
      (drainCompletions now budget s).2.book := by
  induction budget generalizing s with
  | zero => exact .refl _
  | succ budget ih =>
    unfold drainCompletions
    split
    · exact .refl _
    rename_i completion rest _
    have hstep : Book.Step s.book [.completed completion]
        (applyCompletion completion now { s with deferredCompletions := rest }).book :=
      step_of_follows trivial
        (applyCompletion_follows (s := { s with deferredCompletions := rest }) hinv completion now)
    exact (Star.single hstep).trans (ih _ (hinv.step hstep))

theorem expireDeadlines_star (now budget : Nat) (s : RequestRuntime O P) (hinv : Inv s.book) :
    Star Book.Step s.book (replicate (expireDeadlines now budget s).1 .expired)
      (expireDeadlines now budget s).2.book := by
  induction budget generalizing s with
  | zero => exact .refl _
  | succ budget ih =>
    unfold expireDeadlines
    split
    · exact .refl _
    split
    · exact .refl _
    · rename_i entry _ _
      have hremoved : Follows .expired s (s.removeDeadlineAt 0) :=
        .of_book_eq (book_removeDeadlineAt 0)
      have hstep : Book.Step s.book [.expired]
          ((s.removeDeadlineAt 0).applyTimeout entry.id now).book :=
        step_of_follows trivial (hremoved.andThen hinv fun hinv' =>
          applyTimeout_follows hinv' now)
      exact (Star.single hstep).trans (ih _ (hinv.step hstep))

theorem star_inv {b b' : Book O P} {events : List (Event O P)} (hinv : Inv b)
    (h : Star Book.Step b events b') : Inv b' := by
  induction h with
  | refl => exact hinv
  | tail _ hstep ih => exact ih.step hstep

theorem runWorker_star (hinv : Inv s.book) (now : Nat) (budget : RequestWorkerBudget) :
    Star Book.Step s.book ((drainCompletions now budget.completions s).1.map .completed ++
      replicate (s.runWorker now budget).1.deadlines .expired)
      (s.runWorker now budget).2.book := by
  have hdrained := drainCompletions_star now budget.completions s hinv
  have hinv' := star_inv hinv hdrained
  unfold runWorker
  dsimp only
  split
  · simpa using hdrained
  · exact hdrained.trans (expireDeadlines_star now budget.deadlines _ hinv')

theorem failDevice_step (hinv : Inv s.book) (device : RequestDevice) (now : Nat)
    (stopped : Bool) : Book.Step s.book [.deviceFailed device stopped]
      (s.failDevice device now stopped).2.book := by
  refine step_of_follows trivial (sweep_follows (fun index s hinv => ?_) _ s hinv)
  exact failAt_follows hinv device now stopped index

theorem terminateMatching_step (hinv : Inv s.book) (selects : KernelRequest O P → Bool)
    (why : RequestCancelReason) (now : Nat) :
    Book.Step s.book [.terminated] (s.terminateMatching selects why now).2.book := by
  refine step_of_follows trivial (sweep_follows (fun index s hinv => ?_) _ s hinv)
  exact terminateAt_follows hinv selects why now index

theorem exec_star_of_ordinary {op : Op O P} (hop : op.IsOrdinary) (hinv : Inv s.book) :
    Star Book.Step s.book (exec op s).1 (exec op s).2.book := by
  cases op with
  | submit sub now => exact hop.elim
  | submitBatch subs outLen now => exact hop.elim
  | nextDispatch now => exact nextDispatch_star hinv now
  | requeueActive id =>
    exact star_onOk (fun _ => requeueActive_error) (requeueActive_step hinv)
  | markDeviceOwned id => exact star_onOk (fun _ => markDeviceOwned_error) markDeviceOwned_step
  | recordCompletion completion =>
    have hbook : (s.recordCompletion completion).2.book = s.book := by
      unfold recordCompletion
      split <;> rfl
    simp only [exec, hbook]
    exact .refl _
  | runWorker now budget => exact runWorker_star hinv now budget
  | cancel id now =>
    exact star_onOk (fun _ => requestCancel_error) fun _ =>
      step_of_follows trivial (requestCancel_follows hinv _ now)
  | acknowledgeCancel id now deviceStopped =>
    exact star_onOk (fun _ => acknowledgeCancel_error) fun _ =>
      step_of_follows trivial (acknowledgeCancel_follows hinv now deviceStopped)
  | acknowledgeDrain id =>
    exact star_onOk (fun _ => acknowledgeDrain_error) fun _ =>
      step_of_follows trivial (acknowledgeDrain_follows hinv)
  | terminateThread owner now | terminateProcess processId now =>
    exact .single (terminateMatching_step hinv _ _ now)
  | removeDevice device now stopped =>
    exact .single (failDevice_step hinv device now stopped)
  | resetDevice device now => exact .single (failDevice_step hinv device now true)
  | beginShutdown now =>
    refine .single (step_of_follows trivial ?_)
    exact sweep_follows (fun index s hinv => shutdownAt_follows hinv now index) _
      { s with accepting := false } hinv
  | resumeAfterShutdownCancel => exact .refl _
  | nextAction => exact nextAction_step hinv
  | acknowledgeResourceRelease id =>
    exact star_onOk (fun _ => acknowledgeResourceRelease_error)
      (acknowledgeResourceRelease_step hinv)

end RequestRuntime

end Ginkgo.Kernel.Request
