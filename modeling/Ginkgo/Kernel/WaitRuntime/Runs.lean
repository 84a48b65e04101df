import Ginkgo.Kernel.WaitRuntime.Refinement

/-!
# Runs of the wait runtime

A run starts with an empty runtime and makes any calls, with any tokens.  Each of them is a
step of the pool, and so whatever holds of every run of the pool holds of the calls'
replies.
-/

namespace Ginkgo.Kernel

open Ginkgo.Ipc Ginkgo.Lib List

variable {K : Type}

namespace WaitRuntime

variable {capacity : Nat}

inductive Op (K : Type)
  | register (key : K) (kind : WaitKind) (deadlineNs : Option Nat)
  | notify (token : WaitToken)
  | notifyDependency (token : WaitToken)
  | cancel (token : WaitToken)
  | cancelKey (key : K)
  | nextWake (nowNs : Nat)
  deriving DecidableEq

section Exec

variable [DecidableEq K]

/-- A call and what its reply tells.  The reply to `cancel_key` does not name the token, which
is the one the key had. -/
def exec (op : Op K) (s : WaitRuntime K) : WaitEvent K × WaitRuntime K :=
  match op with
  | .register key kind deadlineNs =>
    let (reply, s) := s.register key kind deadlineNs
    match reply with
    | .ok token => (.registered token ⟨key, kind, deadlineNs⟩, s)
    | .error _ => (.refused, s)
  | .notify token =>
    let (accepted, s) := s.notify token .object
    (if accepted then .notified token .object else .stale token, s)
  | .notifyDependency token =>
    let (accepted, s) := s.notifyDependency token
    (if accepted then .notified token .dependency else .stale token, s)
  | .cancel token =>
    let (cancelled, s) := s.cancel token
    (if cancelled then .cancelled token else .stale token, s)
  | .cancelKey key =>
    let (cancelled, s') := s.cancelKey key
    match s.tokenForKey key with
    | some token => (if cancelled then .cancelled token else .stale token, s')
    | none => (.unknownKey key, s')
  | .nextWake nowNs =>
    let (wake, s) := s.nextWake nowNs
    match wake with
    | some wake => (.woke nowNs wake, s)
    | none => (.idle nowNs, s)

def Step (s : WaitRuntime K) (events : List (WaitEvent K)) (s' : WaitRuntime K) : Prop :=
  ∃ op, events = [(s.exec op).1] ∧ s' = (s.exec op).2

def execAll : List (Op K) → WaitRuntime K → List (WaitEvent K) × WaitRuntime K
  | [], s => ([], s)
  | op :: ops, s =>
    let (event, s) := s.exec op
    let (events, s) := execAll ops s
    (event :: events, s)

theorem run_execAll (ops : List (Op K)) (s : WaitRuntime K) :
    Star Step s (execAll ops s).1 (execAll ops s).2 := by
  induction ops generalizing s with
  | nil => exact .refl s
  | cons op ops ih => exact (Star.single ⟨op, rfl, rfl⟩).trans (ih (s.exec op).2)

/-- A run made of calls keeps what every call keeps. -/
structure Kept (s s' : WaitRuntime K) : Prop where
  consistent : s'.Consistent
  capacity : s'.capacity = s.capacity

variable {s : WaitRuntime K}

omit [DecidableEq K] in
theorem exec_cancel (h : s.Consistent) (token : WaitToken) :
    Kept s (s.cancel token).2 ∧ Pool.Step s.pool
      [if (s.cancel token).1 = true then .cancelled token else .stale token]
      (s.cancel token).2.pool := by
  cases hfind : s.find token with
  | none =>
    rw [cancel_stale hfind]
    exact ⟨⟨h, rfl⟩, .stale hfind⟩
  | some wait =>
    obtain ⟨hreply, ⟨hcons, hcap⟩, hpool⟩ := cancel_spec h hfind
    rw [hreply, hpool]
    exact ⟨⟨hcons, hcap⟩, .cancelled hfind⟩

omit [DecidableEq K] in
theorem exec_notify (h : s.Consistent) (token : WaitToken) {cause : WakeCause}
    (hcause : cause ≠ .deadline) :
    Kept s (s.notify token cause).2 ∧ Pool.Step s.pool
      [if (s.notify token cause).1 = true then .notified token cause else .stale token]
      (s.notify token cause).2.pool := by
  cases hfind : s.find token with
  | none =>
    rw [notify_stale h hfind]
    obtain ⟨hcons, hpool⟩ := h.noted (o := s.observer.noteStale) rfl rfl
    exact ⟨⟨hcons, rfl⟩, hpool.symm ▸ .stale hfind⟩
  | some wait =>
    obtain ⟨hreply, hcons, hstep⟩ := notify_spec h hfind hcause
    rw [hreply]
    exact ⟨⟨hcons, rfl⟩, hstep⟩

theorem exec_refines (h : s.Consistent) (op : Op K) :
    Kept s (s.exec op).2 ∧ Pool.Step s.pool [(s.exec op).1] (s.exec op).2.pool := by
  cases op with
  | register key kind deadlineNs =>
    unfold exec
    cases hfree : s.slots.findIdx? fun slot => !slot.isActive && !slot.retired with
    | none =>
      have hreg : s.register key kind deadlineNs = (.error .capacityReached, s) := by
        simp only [register, hfree]
      simp only [hreg]
      exact ⟨⟨h, rfl⟩, .refused⟩
    | some i =>
      obtain ⟨token, hreply, ⟨hcons, hcap⟩, hstep⟩ := register_spec h ⟨key, kind, deadlineNs⟩ hfree
      simp only [hreply]
      exact ⟨⟨hcons, hcap⟩, hstep⟩
  | notify token | notifyDependency token => exact exec_notify h token nofun
  | cancel token => exact exec_cancel h token
  | cancelKey key =>
    cases htok : s.tokenForKey key with
    | some token =>
      simp only [exec, cancelKey, htok]
      exact exec_cancel h token
    | none =>
      simp only [exec, cancelKey, htok]
      exact ⟨⟨h, rfl⟩, .unknownKey fun token wait hfind => tokenForKey_none h htok hfind⟩
  | nextWake now =>
    obtain ⟨⟨hcons, hcap⟩, hwakes, hpool⟩ := nextWake_spec h now
    unfold exec
    cases hwake : (s.nextWake now).1 with
    | none =>
      rw [hwake] at hwakes hpool
      simp only [hwake]
      exact ⟨⟨hcons, hcap⟩, hpool.symm ▸ .idle hwakes⟩
    | some wake =>
      rw [hwake] at hwakes hpool
      simp only [hwake]
      exact ⟨⟨hcons, hcap⟩, hpool.symm ▸ .woke hwakes⟩

theorem run_refines {s' : WaitRuntime K} {history : List (WaitEvent K)} (h : s.Consistent)
    (hrun : Star Step s history s') :
    Kept s s' ∧ Star Pool.Step s.pool history s'.pool := by
  induction hrun with
  | refl => exact ⟨⟨h, rfl⟩, .refl _⟩
  | tail _ hstep ih =>
    obtain ⟨hkept, hpool⟩ := ih
    obtain ⟨op, rfl, rfl⟩ := hstep
    obtain ⟨hkept', hpool'⟩ := exec_refines hkept.consistent op
    exact ⟨⟨hkept'.consistent, hkept'.capacity.trans hkept.capacity⟩, hpool.tail hpool'⟩

end Exec

/-! ## The empty runtime -/

/-- The tables before the first call. -/
def vacant (capacity : Nat) : WaitRuntime K :=
  ⟨capacity, replicate capacity .vacant, [], ⟨replicate capacity .vacant, [], {}⟩⟩

theorem tryNew_ok {memory memory' : Budget} {s : WaitRuntime K}
    (h : tryNew capacity memory = .ok s memory') : capacity ≤ u32Max ∧ s = vacant capacity := by
  have hwp : wp (tryNew capacity) (fun s _ => capacity ≤ u32Max ∧ s = vacant (K := K) capacity)
      (fun _ _ => True) memory := by
    refine wp_ite (fun _ => wp_throw trivial) fun _ => ?_
    refine wp_ite (fun _ => wp_throw trivial) fun hle => ?_
    iterate 4 refine wp_allocCapacity_bind fun _ => ?_
    exact wp_bind (wp_alloc (fun _ => wp_pure ⟨Nat.le_of_not_lt hle, rfl⟩) fun _ => trivial)
  have hok := wp_ok hwp h
  exact hok

theorem uses_vacant {i : Nat} {use : SlotUse K}
    (h : (vacant capacity : WaitRuntime K).uses[i]? = some use) : use = ⟨1, false, none⟩ := by
  have hmem := mem_of_getElem? h
  simp only [uses, vacant, map_replicate, mem_replicate] at hmem
  exact hmem.2

theorem vacant_consistent (h : capacity ≤ u32Max) :
    (vacant capacity : WaitRuntime K).Consistent := by
  have htabs : (vacant capacity : WaitRuntime K).TablesAgree := by
    refine ⟨h, by simp [uses, vacant], by simp [vacant], fun i use obs huse hobs => ?_⟩
    rw [uses_vacant huse]
    have hmem := mem_of_getElem? hobs
    simp only [vacant, mem_replicate] at hmem
    rw [hmem.2]
    exact ⟨rfl, rfl, rfl, Nat.one_pos, show 1 ≤ u32Max by decide, fun _ => rfl, nofun⟩
  refine ⟨htabs, nodup_nil, ?_, ?_, ?_⟩
  · intro token
    simp only [vacant, map_nil, not_mem_nil, false_iff]
    rintro ⟨i, obs, hobs, hqueued, -⟩
    have hmem := mem_of_getElem? hobs
    simp only [mem_replicate] at hmem
    rw [hmem.2] at hqueued
    cases hqueued
  · refine ⟨⟨fun i k => ?_, nofun⟩, fun j _ a b ha => ?_⟩
    · have hnone : heapPosition (vacant capacity : WaitRuntime K) i = none := by
        unfold heapPosition vacant
        simp only [getElem?_replicate]
        split <;> rfl
      rw [hnone]
      simp [vacant, deadlineHeap]
    · simp [vacant, deadlineHeap] at ha
  · intro entry
    simp only [vacant, not_mem_nil, false_iff]
    rintro ⟨wait, hfind, -⟩
    obtain ⟨i, use, huse, hwait, -⟩ := (htabs.find_iff _ _).mp hfind
    rw [uses_vacant huse] at hwait
    cases hwait

theorem pool_vacant (h : capacity ≤ u32Max) :
    (vacant capacity : WaitRuntime K).pool = Pool.empty := by
  have hcons := vacant_consistent (K := K) h
  unfold pool Pool.empty
  congr 1
  · funext token
    rw [Option.eq_none_iff_forall_ne_some]
    intro wait hfind
    obtain ⟨i, use, huse, hwait, -⟩ := (hcons.find_iff _ _).mp hfind
    rw [uses_vacant huse] at hwait
    cases hwait
  · ext token
    simp only [Set.mem_empty_iff_false, iff_false, hcons.spent_iff]
    rintro ⟨i, use, generation, huse, hpos, -, hor⟩
    rw [uses_vacant huse] at hor
    simp only [Bool.false_eq_true, and_false, or_false] at hor
    omega

/-! ## Wakes -/

/-- No call takes the token for that of a wait. -/
structure Rejects [DecidableEq K] (s : WaitRuntime K) (token : WaitToken) : Prop where
  notify : ∀ cause, s.notify token cause = (false, { s with observer := s.observer.noteStale })
  cancel : s.cancel token = (false, s)
  tokenForKey : ∀ key, s.tokenForKey key ≠ some token
  nextWake : ∀ nowNs wake, (s.nextWake nowNs).1 = some wake → wake.token ≠ token

section Wakes

variable [DecidableEq K] {s : WaitRuntime K} {history : List (WaitEvent K)} {token : WaitToken}
  {wait : Wait K}

theorem rejects_of_find (h : s.Consistent) (hfind : s.find token = none) : s.Rejects token := by
  refine ⟨notify_stale h hfind, cancel_stale hfind, fun key hkey => ?_, fun now wake hwake => ?_⟩
  · obtain ⟨wait, hwait, -⟩ := tokenForKey_spec h hkey
    rw [hfind] at hwait
    cases hwait
  · rintro rfl
    obtain ⟨-, hwakes, -⟩ := nextWake_spec h now
    rw [hwake] at hwakes
    obtain ⟨wait, hwait, -⟩ := hwakes.active
    rw [show s.pool.active wake.token = s.find wake.token from rfl, hfind] at hwait
    cases hwait

omit [DecidableEq K] in
/-- A token is issued once. -/
theorem register_fresh (h : s.Consistent) (hrefl : Pool.Reflects history s.pool)
    (hmem : token ∈ registrations history) (key : K) (kind : WaitKind) (deadlineNs : Option Nat) :
    (s.register key kind deadlineNs).1 ≠ .ok token := by
  intro hreply
  cases hfree : s.slots.findIdx? fun slot => !slot.isActive && !slot.retired with
  | none =>
    simp only [register, hfree] at hreply
    cases hreply
  | some i =>
    obtain ⟨token', hreply', -, hstep⟩ := register_spec h ⟨key, kind, deadlineNs⟩ hfree
    rw [hreply] at hreply'
    cases hreply'
    have hnodup := (hstep.reflects hrefl).registrations_nodup
    rw [registrations_append, nodup_append] at hnodup
    exact hnodup.2.2 token hmem token (mem_singleton_self _) rfl

/-- A notified wait is served before any deadline, unless it is cancelled. -/
theorem notified_served (h : s.Consistent) (hrefl : Pool.Reflects history s.pool)
    (hfind : s.find token = some wait) {cause : WakeCause} (hcause : cause ≠ .deadline)
    {later : List (WaitEvent K)} {s' : WaitRuntime K}
    (hrun : Star Step (s.notify token cause).2 later s') (hcanc : .cancelled token ∉ later) :
    (∃ cause', cause' ≠ .deadline ∧ Pool.Served later ⟨token, cause'⟩) ∨
      (∀ event ∈ later, event.overtakes = false) ∧ Pool.dispatches later < s.capacity := by
  obtain ⟨-, hcons, hstep⟩ := notify_spec h hfind hcause
  have hrefl' := hstep.reflects hrefl
  obtain ⟨-, hpool⟩ := run_refines hcons hrun
  have hmem : token ∈ (s.notify token cause).2.pool.ready.map (·.token) := by
    rw [hrefl'.ready_iff]
    refine ⟨⟨wait, (hrefl'.active_iff token wait).mp hfind⟩, cause, ?_⟩
    exact mem_append_right _ (mem_singleton_self _)
  obtain ⟨record, hrecord, rfl⟩ := mem_map.mp hmem
  obtain ⟨before, after, hsplit⟩ := append_of_mem hrecord
  have hlen := hcons.ready_length_le
  rw [show (s.notify record.token cause).2.observer.ready = _ from hsplit, length_append,
    length_cons] at hlen
  rcases Pool.run_queued hrefl' ⟨before, after, hsplit, le_rfl⟩ hpool hcanc with
    hserved | ⟨hquiet, ahead, -, hle⟩
  · exact .inl ⟨record.cause, hrefl'.ready_cause record hrecord, hserved⟩
  · refine .inr ⟨hquiet, ?_⟩
    have hcap : (s.notify record.token cause).2.capacity = s.capacity := rfl
    omega

/-- Each registered token is used up by at most one wake or cancellation, and is rejected from
then on; a notified wait is woken before any deadline; a dispatch finds what is pending, and
deadlines in order. -/
theorem run_wakes_each_wait_once {capacity : Nat} {memory memory' : Budget} {s₀ : WaitRuntime K}
    (hnew : tryNew capacity memory = .ok s₀ memory') (hrun : Star Step s₀ history s) :
    ((registrations history).Nodup ∧ (consumptions history).Nodup ∧
      consumptions history ⊆ registrations history) ∧
    (∀ token, (∀ wait, ¬Waiting history token wait) → s.Rejects token) ∧
    (∀ token ∈ registrations history, ∀ key kind deadlineNs,
      (s.register key kind deadlineNs).1 ≠ .ok token) ∧
    (∀ token wait, Waiting history token wait → (s.cancel token).1 = true ∧
      ∀ cause, cause ≠ .deadline → (s.notify token cause).1 = true ∧
        ∀ later s', Star Step (s.notify token cause).2 later s' → .cancelled token ∉ later →
          (∃ cause', cause' ≠ .deadline ∧ Pool.Served later ⟨token, cause'⟩) ∨
            (∀ event ∈ later, event.overtakes = false) ∧ Pool.dispatches later < capacity) ∧
    (∀ nowNs, (s.nextWake nowNs).1 = none ↔ ∀ token wait, Waiting history token wait →
      ¬Notified history token ∧ ∀ deadlineNs, wait.deadlineNs = some deadlineNs →
        nowNs < deadlineNs) ∧
    (∀ nowNs wake, (s.nextWake nowNs).1 = some wake →
      ∃ wait, Waiting history wake.token wait ∧ wake = wait.wake wake.token wake.cause ∧
        (wake.cause ≠ .deadline → Notified history wake.token) ∧
        (wake.cause = .deadline → ∃ deadlineNs, wait.deadlineNs = some deadlineNs ∧
          deadlineNs ≤ nowNs ∧ ∀ token' wait' deadlineNs', Waiting history token' wait' →
            wait'.deadlineNs = some deadlineNs' →
            toLex (deadlineNs, wake.token.raw) ≤ toLex (deadlineNs', token'.raw))) ∧
    s.Consistent ∧ s.observer.ready.length ≤ capacity := by
  obtain ⟨hcapacity, rfl⟩ := tryNew_ok hnew
  obtain ⟨⟨h, hsame⟩, hpool⟩ := run_refines (vacant_consistent hcapacity) hrun
  rw [pool_vacant hcapacity] at hpool
  have hreflects := Pool.run_reflects hpool
  have hfind token wait :
      s.find token = some wait ↔ Waiting history token wait := hreflects.active_iff token wait
  refine ⟨⟨hreflects.registrations_nodup, hreflects.consumptions_nodup,
    hreflects.consumed_registered⟩, fun token hnot => ?_, fun token hmem => ?_,
    fun token wait hwaiting => ?_, fun nowNs => ?_, fun nowNs wake hwake => ?_, h, ?_⟩
  · refine rejects_of_find h (Option.eq_none_iff_forall_ne_some.mpr fun wait hwait => ?_)
    exact hnot wait ((hfind token wait).mp hwait)
  · exact register_fresh h hreflects hmem
  · have hwait := (hfind token wait).mpr hwaiting
    refine ⟨(cancel_spec h hwait).1, fun cause hcause => ⟨(notify_spec h hwait hcause).1,
      fun later s' hlater hcancelled => ?_⟩⟩
    have hserved := notified_served h hreflects hwait hcause hlater hcancelled
    rwa [hsame] at hserved
  · obtain ⟨-, hwakes, -⟩ := nextWake_spec h nowNs
    constructor
    · intro hnone token wait hwaiting
      rw [hnone] at hwakes
      cases hwakes with
      | none hready hlate =>
        refine ⟨fun hnotified => ?_, fun deadlineNs =>
          hlate token wait deadlineNs ((hfind token wait).mpr hwaiting)⟩
        have hmem := (hreflects.ready_iff token).mpr ⟨⟨wait, hwaiting⟩, hnotified⟩
        rw [hready] at hmem
        cases hmem
    · intro hall
      cases hwake : (s.nextWake nowNs).1 with
      | none => rfl
      | some wake =>
        rw [hwake] at hwakes
        cases hwakes with
        | @ready record rest wait hready hactive =>
          have hmem : record.token ∈ s.pool.ready.map (·.token) := by simp [hready]
          obtain ⟨⟨wait, hwaiting⟩, hnotified⟩ := (hreflects.ready_iff _).mp hmem
          exact absurd hnotified (hall _ wait hwaiting).1
        | @deadline token wait deadlineNs _ hactive hdeadline hdue =>
          have hlate := (hall token wait ((hfind token wait).mp hactive)).2 deadlineNs hdeadline
          omega
  · obtain ⟨-, hwakes, -⟩ := nextWake_spec h nowNs
    rw [hwake] at hwakes
    cases hwakes with
    | @ready record rest wait hready hactive =>
      have hrecord : record ∈ s.pool.ready := by simp [hready]
      refine ⟨wait, (hfind _ wait).mp hactive, rfl, fun _ => ?_, fun hdeadline => ?_⟩
      · exact ((hreflects.ready_iff _).mp (mem_map_of_mem hrecord)).2
      · exact absurd hdeadline (hreflects.ready_cause record hrecord)
    | @deadline token wait deadlineNs _ hactive hdeadline hdue hfirst =>
      refine ⟨wait, (hfind _ wait).mp hactive, rfl, fun hne => absurd rfl hne,
        fun _ => ⟨deadlineNs, hdeadline, hdue, fun token' wait' deadlineNs' hwaiting' hd => ?_⟩⟩
      exact hfirst token' wait' deadlineNs' ((hfind token' wait').mpr hwaiting') hd
  · have hle := h.ready_length_le
    rwa [hsame] at hle

end Wakes

/-- A sleep that is due and a join that is notified: the join is woken first. -/
def sleepAndJoin : List (Op Nat) :=
  [.register 10 .sleep (some 5), .register 11 .join none, .notify ⟨2 ^ 32 + 2, by decide⟩,
    .nextWake 9, .nextWake 9, .cancel ⟨2 ^ 32 + 1, by decide⟩, .nextWake 9]

theorem run_wakes_each_wait_once_sleepAndJoin : consumptions (execAll sleepAndJoin (vacant 2)).1 =
        [⟨2 ^ 32 + 2, by decide⟩, ⟨2 ^ 32 + 1, by decide⟩] ∧
      (consumptions (execAll sleepAndJoin (vacant 2)).1).Nodup ∧
      (execAll sleepAndJoin (vacant 2)).2.observer.ready.length ≤ 2 := by
  have hnew : (tryNew 2 : EStateM _ _ (WaitRuntime Nat)) none = .ok (vacant 2) none := rfl
  have hrun := run_wakes_each_wait_once hnew (run_execAll sleepAndJoin (vacant 2))
  exact ⟨by decide +kernel, hrun.1.2.1, hrun.2.2.2.2.2.2.2⟩

end WaitRuntime

end Ginkgo.Kernel
