import Ginkgo.Kernel.Request.Book

/-!
# Targets

The FIFO of a target holds the pending requests against it, each once.  A request that was
started and not given back is the active one of its target.
-/

namespace Ginkgo.Kernel.Request

open Ginkgo.Lib Ginkgo.Sysapi List Option

variable {O P : Type}

/-- The request was started and has not ended. -/
def Running (r : KernelRequest O P) : Prop := r.state = .active ∨ r.state = .cancelPending

theorem Running.not_terminal {r : KernelRequest O P} (h : Running r) :
    isTerminal r.state = false := by
  rcases h with h | h <;> rw [h] <;> rfl

theorem Running.not_pending {r : KernelRequest O P} (h : Running r) : r.state ≠ .pending := by
  rcases h with h | h <;> rw [h] <;> nofun

/-- What holds of one target. -/
structure Lane (live : KernelRequest O P → Prop) (queue : TargetQueue) : Prop where
  nodup : queue.queued.Nodup
  queued_iff : ∀ id, id ∈ queue.queued ↔
    ∃ r, live r ∧ r.id = id ∧ r.state = .pending ∧ queue.target = some r.target
  active : ∀ id, queue.active = some id →
    ∃ r, live r ∧ r.id = id ∧ r.state ≠ .pending ∧ r.startedAtNs.isSome ∧
      queue.target = some r.target

structure Lanes (live : KernelRequest O P → Prop) (targets : List TargetQueue) : Prop where
  distinct : ∀ (i j : Nat) (queue queue' : TargetQueue) (target : RequestTarget),
    targets[i]? = some queue → targets[j]? = some queue' → queue.target = some target →
    queue'.target = some target → i = j
  lane : ∀ (j : Nat) (queue : TargetQueue), targets[j]? = some queue → Lane live queue
  pending : ∀ r, live r → r.state = .pending →
    ∃ (j : Nat) (queue : TargetQueue), targets[j]? = some queue ∧ queue.target = some r.target
  running : ∀ r, live r → Running r → ∃ (j : Nat) (queue : TargetQueue), targets[j]? = some queue ∧
      queue.target = some r.target ∧ queue.active = some r.id

namespace Lane

variable {live live' : KernelRequest O P → Prop} {queue : TargetQueue} {r r' : KernelRequest O P}

theorem congr (h : Lane live queue) (hfrom : ∀ x, live x → queue.target = some x.target →
      x.state = .pending ∨ queue.active = some x.id → ∃ y, live' y ∧ y.id = x.id ∧
        (y.state = .pending ↔ x.state = .pending) ∧
        (x.startedAtNs.isSome → y.startedAtNs.isSome) ∧ y.target = x.target)
    (hto : ∀ y, live' y → queue.target = some y.target → y.state = .pending →
      ∃ x, live x ∧ x.id = y.id ∧ x.state = .pending ∧ x.target = y.target) :
    Lane live' queue := by
  refine ⟨h.nodup, fun id => ?_, fun id hact => ?_⟩
  · rw [h.queued_iff id]
    constructor
    · rintro ⟨x, hx, rfl, hst, hname⟩
      obtain ⟨y, hy, hid, hpend, -, htarget⟩ := hfrom x hx hname (.inl hst)
      exact ⟨y, hy, hid, hpend.mpr hst, htarget ▸ hname⟩
    · rintro ⟨y, hy, rfl, hst, hname⟩
      obtain ⟨x, hx, hid, hst, htarget⟩ := hto y hy hname hst
      exact ⟨x, hx, hid, hst, htarget ▸ hname⟩
  · obtain ⟨x, hx, rfl, hst, hstart, hname⟩ := h.active id hact
    obtain ⟨y, hy, hid, hpend, hstarted, htarget⟩ := hfrom x hx hname (.inr hact)
    exact ⟨y, hy, hid, fun hp => hst (hpend.mp hp), hstarted hstart, htarget ▸ hname⟩

theorem other (h : Lane live queue) (hlive : ∀ x, live' x ↔ x = r' ∨ live x ∧ x.id ≠ r'.id)
    (hsame : ∀ x, live x → x.id = r'.id → x.target = r'.target)
    (hne : queue.target ≠ some r'.target) : Lane live' queue := by
  refine h.congr (fun x hx hname _ => ⟨x, (hlive x).mpr (.inr ⟨hx, fun hid => hne ?_⟩), rfl,
    Iff.rfl, id, rfl⟩) fun y hy hname hst => ?_
  · rw [hname, hsame x hx hid]
  · rcases (hlive y).mp hy with rfl | ⟨hy, -⟩
    · exact absurd hname hne
    · exact ⟨y, hy, rfl, hst, rfl⟩

variable (hunique : ∀ x y, live x → live y → x.id = y.id → x = y)

include hunique

theorem name_of_active (h : Lane live queue) (hr : live r) (hact : queue.active = some r.id) :
    r.state ≠ .pending ∧ r.startedAtNs.isSome ∧ queue.target = some r.target := by
  obtain ⟨x, hx, hid, hrest⟩ := h.active r.id hact
  obtain rfl := hunique x r hx hr hid
  exact hrest

theorem name_of_queued (h : Lane live queue) (hr : live r) (hqueued : r.id ∈ queue.queued) :
    r.state = .pending ∧ queue.target = some r.target := by
  obtain ⟨x, hx, hid, hrest⟩ := (h.queued_iff r.id).mp hqueued
  obtain rfl := hunique x r hx hr hid
  exact hrest

end Lane

/-- Who has the name now. -/
theorem Replaced.exists_iff {live live' p : KernelRequest O P → Prop} {r r' : KernelRequest O P}
    (h : Replaced live live' r r') {id : RequestId} : (∃ x, live' x ∧ x.id = id ∧ p x) ↔
      id = r.id ∧ p r' ∨ id ≠ r.id ∧ ∃ x, live x ∧ x.id = id ∧ p x := by
  simp only [h.iff, h.id_eq]
  constructor
  · rintro ⟨x, rfl | ⟨hx, hne⟩, rfl, hp⟩
    · exact .inl ⟨h.id_eq, hp⟩
    · exact .inr ⟨hne, x, hx, rfl, hp⟩
  · rintro (⟨rfl, hp⟩ | ⟨hne, x, hx, rfl, hp⟩)
    · exact ⟨r', .inl rfl, h.id_eq, hp⟩
    · exact ⟨x, .inr ⟨hx, hne⟩, rfl, hp⟩

namespace Lanes

variable {live live' : KernelRequest O P → Prop} {targets : List TargetQueue}
  {r r' : KernelRequest O P} {j : Nat} {queue queue' : TargetQueue}

/-! ## Edits -/

theorem exists_set {p : TargetQueue → Prop} (hq : targets[j]? = some queue)
    (h : p queue' ∨
      (∃ (k : Nat) (other : TargetQueue), targets[k]? = some other ∧ p other) ∧ ¬p queue) :
    ∃ (k : Nat) (other : TargetQueue), (targets.set j queue')[k]? = some other ∧ p other := by
  rcases h with h | ⟨⟨k, other, hk, hother⟩, hnot⟩
  · exact ⟨j, queue', (getElem?_set_iff hq _ _ _).mpr (.inl ⟨rfl, rfl⟩), h⟩
  · refine ⟨k, other, (getElem?_set_iff hq _ _ _).mpr (.inr ⟨?_, hk⟩), hother⟩
    rintro rfl
    rw [hq] at hk
    cases hk
    exact hnot hother

section

variable (h : Lanes live targets)
include h

theorem set (hq : targets[j]? = some queue) (hname : ∀ target, queue'.target = some target →
      queue.target = some target ∨ ∀ other ∈ targets, other.target ≠ some target)
    (hlane : Lane live' queue')
    (hother : ∀ k other, k ≠ j → targets[k]? = some other → Lane live' other)
    (hpend : ∀ x, live' x → x.state = .pending → queue'.target = some x.target ∨
      live x ∧ queue.target ≠ some x.target) (hrunning : ∀ x, live' x → Running x →
      queue'.target = some x.target ∧ queue'.active = some x.id ∨
        live x ∧ ¬(queue.target = some x.target ∧ queue.active = some x.id)) :
    Lanes live' (targets.set j queue') := by
  have hset := getElem?_set_iff hq queue'
  -- the new name of the changed target is not that of another
  have hapart : ∀ k other target, k ≠ j →
      targets[k]? = some other → other.target = some target → queue'.target ≠ some target := by
    intro k other target hne hk hown heq
    rcases hname target heq with hold | hfresh
    · exact hne (h.distinct k j other queue target hk hq hown hold)
    · exact hfresh other (mem_of_getElem? hk) hown
  refine ⟨fun i k x y target hi hk hx hy => ?_, fun k x hk => ?_, fun x hx hst => ?_,
    fun x hx hrun => ?_⟩
  · rcases (hset _ _).mp hi with ⟨hij, rfl⟩ | ⟨hij, hi'⟩ <;>
      rcases (hset _ _).mp hk with ⟨hkj, rfl⟩ | ⟨hkj, hk'⟩
    · exact hij.trans hkj.symm
    · exact absurd hx (hapart k y target hkj hk' hy)
    · exact absurd hy (hapart i x target hij hi' hx)
    · exact h.distinct i k x y target hi' hk' hx hy
  · rcases (hset _ _).mp hk with ⟨-, rfl⟩ | ⟨hkj, hk'⟩
    · exact hlane
    · exact hother k x hkj hk'
  · exact exists_set hq ((hpend x hx hst).imp_right (.imp_left (h.pending x · hst)))
  · exact exists_set hq ((hrunning x hx hrun).imp_right (.imp_left (h.running x · hrun)))

theorem vacate (hr : live r) (hunique : ∀ x y, live x → live y → x.id = y.id → x = y)
    (hterm : isTerminal r.state = true) (hq : targets[j]? = some queue)
    (hact : queue.active = some r.id) :
    Lanes live (targets.set j { queue with active := none }) := by
  have hlane := h.lane j queue hq
  refine h.set hq (fun target hname => .inl hname)
    ⟨hlane.nodup, hlane.queued_iff, fun id hid => nomatch hid⟩
      (fun k other _ hk => h.lane k other hk)
    (fun x hx _ => (em _).imp_right (⟨hx, ·⟩)) fun x hx hrun => .inr ⟨hx, fun hx' => ?_⟩
  -- the queue of a running request is not the one that is vacated
  rw [hact] at hx'
  obtain rfl := hunique r x hr hx (some.inj hx'.2)
  rw [hrun.not_terminal] at hterm
  cases hterm

theorem release (hq : targets[j]? = some queue) (hidle : queue.isIdle = true) :
    Lanes live (targets.set j { queue with target := none }) := by
  obtain ⟨hact, hqueued⟩ : queue.active = none ∧ queue.queued = [] := by
    simpa [TargetQueue.isIdle] using hidle
  refine h.set hq (fun target hname => nomatch hname) ⟨?_, fun id => ?_, fun id hid => ?_⟩
    (fun k other _ hk => h.lane k other hk) (fun x hx hst => .inr ⟨hx, fun hname => ?_⟩)
    fun x hx _ => .inr ⟨hx, fun hx' => ?_⟩
  · exact (h.lane j queue hq).nodup
  · simp [hqueued]
  · rw [hact] at hid
    cases hid
  · have hmem := ((h.lane j queue hq).queued_iff x.id).mpr ⟨x, hx, rfl, hst, hname⟩
    rw [hqueued] at hmem
    cases hmem
  · rw [hact] at hx'
    cases hx'.2

end

section Put

variable (hlive : ∀ x, live' x ↔ x = r' ∨ live x ∧ x.id ≠ r'.id)

include hlive

theorem submit (h : Lanes live targets) (hfresh : ∀ x, live x → x.id ≠ r'.id)
    (hst : r'.state = .pending) (hq : targets[j]? = some queue)
    (hname : queue.target = some r'.target ∨
      queue.target = none ∧ ∀ other ∈ targets, other.target ≠ some r'.target) :
    Lanes live' (targets.set j { queue with
      target := some r'.target
      queued := queue.queued ++ [r'.id] }) := by
  have hlane := h.lane j queue hq
  have hlive' : ∀ x, live' x ↔ x = r' ∨ live x := by
    intro x
    rw [hlive]
    exact or_congr_right ⟨And.left, fun hx => ⟨hx, hfresh x hx⟩⟩
  have hold : ∀ target, queue.target = some target → target = r'.target := by
    intro target htarget
    rcases hname with hname | ⟨hnone, -⟩
    · rw [hname] at htarget
      exact (some.inj htarget).symm
    · rw [hnone] at htarget
      cases htarget
  have hmem : ∀ id, id ∈ queue.queued ↔
      ∃ x, live x ∧ x.id = id ∧ x.state = .pending ∧ x.target = r'.target := by
    intro id
    rw [hlane.queued_iff id]
    constructor
    · rintro ⟨x, hx, hxid, hpend, htarget⟩
      exact ⟨x, hx, hxid, hpend, hold _ htarget⟩
    rintro ⟨x, hx, hxid, hpend, htarget⟩
    refine ⟨x, hx, hxid, hpend, ?_⟩
    rcases hname with hname | ⟨-, hnew⟩
    · rw [hname, htarget]
    · obtain ⟨k, other, hk, hother⟩ := h.pending x hx hpend
      rw [htarget] at hother
      exact absurd hother (hnew other (mem_of_getElem? hk))
  refine h.set hq (fun target htarget => ?_) ⟨?_, fun id => ?_, fun id hid => ?_⟩
    (fun k other hkj hk => ?_) (fun x hx hpend => ?_) fun x hx hrun => ?_
  · obtain rfl : r'.target = target := some.inj htarget
    exact hname.imp_right And.right
  · refine nodup_append.mpr ⟨hlane.nodup, nodup_singleton _, ?_⟩
    rintro id hid _ hnew rfl
    obtain ⟨x, hx, rfl, -⟩ := (hmem id).mp hid
    exact hfresh x hx (mem_singleton.mp hnew)
  · simp only [mem_append, mem_singleton, hmem, hlive', some.injEq]
    constructor
    · rintro (⟨x, hx, hxid, hpend, htarget⟩ | rfl)
      · exact ⟨x, .inr hx, hxid, hpend, htarget.symm⟩
      · exact ⟨r', .inl rfl, rfl, hst, rfl⟩
    · rintro ⟨x, rfl | hx, hxid, hpend, htarget⟩
      · exact .inr hxid.symm
      · exact .inl ⟨x, hx, hxid, hpend, htarget.symm⟩
  · obtain ⟨x, hx, hxid, hpend, hstart, htarget⟩ := hlane.active id hid
    exact ⟨x, (hlive' x).mpr (.inr hx), hxid, hpend, hstart, by rw [hold _ htarget]⟩
  · refine (h.lane k other hk).other hlive (fun x hx hid => absurd hid (hfresh x hx)) fun heq => ?_
    rcases hname with hname | ⟨-, hnew⟩
    · exact hkj (h.distinct k j other queue r'.target hk hq heq hname)
    · exact hnew other (mem_of_getElem? hk) heq
  · rcases (hlive' x).mp hx with rfl | hx
    · exact .inl rfl
    · exact (em _).imp (fun htarget => by rw [hold _ htarget]) (⟨hx, ·⟩)
  · rcases (hlive' x).mp hx with rfl | hx
    · exact absurd hst hrun.not_pending
    · exact (em _).imp (fun hx' => ⟨by rw [hold _ hx'.1], hx'.2⟩) (⟨hx, ·⟩)

end Put

section Replaced

variable (h : Lanes live targets) (hs : Replaced live live' r r') (htarget : r'.target = r.target)
include h hs htarget

theorem other (hq : targets[j]? = some queue) (hname : queue.target = some r.target) {k : Nat}
    (hkj : k ≠ j) (hk : targets[k]? = some queue') : Lane live' queue' := by
  refine (h.lane k queue' hk).other hs.iff (fun x hx hid => ?_) fun heq => hkj ?_
  · rw [hs.eq_of_id hx (hid.trans hs.id_eq), htarget]
  · rw [htarget] at heq
    exact h.distinct k j queue' queue r.target hk hq heq hname

theorem amend (hpend : r'.state = .pending ↔ r.state = .pending) (hrunning : Running r' → Running r)
    (hstarted : r.startedAtNs.isSome → r'.startedAtNs.isSome) : Lanes live' targets := by
  refine ⟨h.distinct, fun j queue hq => ?_, fun x hx hst => ?_, fun x hx hrun => ?_⟩
  · refine (h.lane j queue hq).congr (fun x hx _ _ => ?_) fun y hy _ hst => ?_
    · rcases hs.kept hx with rfl | ⟨hx, -⟩
      · exact ⟨r', hs.new, hs.id_eq, hpend, hstarted, htarget⟩
      · exact ⟨x, hx, rfl, Iff.rfl, id, rfl⟩
    · rcases (hs.iff y).mp hy with rfl | ⟨hy, -⟩
      · exact ⟨r, hs.was, hs.id_eq.symm, hpend.mp hst, htarget.symm⟩
      · exact ⟨y, hy, rfl, hst, rfl⟩
  · rcases (hs.iff x).mp hx with rfl | ⟨hx, -⟩
    · rw [htarget]
      exact h.pending r hs.was (hpend.mp hst)
    · exact h.pending x hx hst
  · rcases (hs.iff x).mp hx with rfl | ⟨hx, -⟩
    · rw [htarget, hs.id_eq]
      exact h.running r hs.was (hrunning hrun)
    · exact h.running x hx hrun

theorem dispatch {rest : List RequestId}
    (hact' : r'.state = .active) (hstarted : r'.startedAtNs.isSome) (hq : targets[j]? = some queue)
    (hact : queue.active = none) (hqueued : queue.queued = r.id :: rest) :
    Lanes live' (targets.set j { queue with active := some r.id, queued := rest }) := by
  have hlane := h.lane j queue hq
  have hname : queue.target = some r.target :=
    (hlane.name_of_queued hs.unique hs.was (by rw [hqueued]; exact mem_cons_self)).2
  have hnodup := hlane.nodup
  rw [hqueued, nodup_cons] at hnodup
  refine h.set hq (fun target hsome => .inl hsome) ⟨hnodup.2, fun id => ?_, fun id hsome => ?_⟩
    (fun _ _ => h.other hs htarget hq hname) (fun x hx hpend => ?_) fun x hx hrun => ?_
  · rw [hs.exists_iff, ← hlane.queued_iff id, hqueued, mem_cons, hact']
    constructor
    · exact fun hrest => .inr ⟨ne_of_mem_of_not_mem hrest hnodup.1, .inr hrest⟩
    · rintro (⟨-, hpend, -⟩ | ⟨hne, hmem⟩)
      · cases hpend
      · exact hmem.resolve_left hne
  · cases hsome
    exact ⟨r', hs.new, hs.id_eq, by simp [hact'], hstarted, htarget ▸ hname⟩
  · rcases (hs.iff x).mp hx with rfl | ⟨hx, -⟩
    · exact .inl (htarget ▸ hname)
    · exact (em _).imp_right (⟨hx, ·⟩)
  · rcases (hs.iff x).mp hx with rfl | ⟨hx, -⟩
    · exact .inl ⟨htarget ▸ hname, congrArg some hs.id_eq.symm⟩
    · refine .inr ⟨hx, fun hx' => ?_⟩
      rw [hact] at hx'
      cases hx'.2

theorem requeue (hst : r'.state = .pending)
    (hq : targets[j]? = some queue) (hact : queue.active = some r.id) :
    Lanes live' (targets.set j
      { queue with active := none, queued := queue.queued ++ [r.id] }) := by
  have hlane := h.lane j queue hq
  obtain ⟨hrunning, -, hname⟩ := hlane.name_of_active hs.unique hs.was hact
  have hnot : r.id ∉ queue.queued := fun hmem =>
    hrunning (hlane.name_of_queued hs.unique hs.was hmem).1
  refine h.set hq (fun target hsome => .inl hsome) ⟨?_, fun id => ?_, fun id hsome => nomatch hsome⟩
    (fun _ _ => h.other hs htarget hq hname) (fun x hx hpend => ?_) fun x hx hrun => ?_
  · refine nodup_append.mpr ⟨hlane.nodup, nodup_singleton _, ?_⟩
    rintro id hmem _ hnew rfl
    rw [mem_singleton.mp hnew] at hmem
    exact hnot hmem
  · rw [mem_append, mem_singleton, hs.exists_iff, ← hlane.queued_iff id]
    constructor
    · rintro (hmem | rfl)
      · exact .inr ⟨ne_of_mem_of_not_mem hmem hnot, hmem⟩
      · exact .inl ⟨rfl, hst, htarget ▸ hname⟩
    · exact fun hmem => hmem.symm.imp And.right And.left
  · rcases (hs.iff x).mp hx with rfl | ⟨hx, -⟩
    · exact .inl (htarget ▸ hname)
    · exact (em _).imp_right (⟨hx, ·⟩)
  · rcases (hs.iff x).mp hx with rfl | ⟨hx, hne⟩
    · exact absurd hst hrun.not_pending
    · refine .inr ⟨hx, fun hx' => hne ?_⟩
      rw [hact] at hx'
      exact (some.inj hx'.2).symm.trans hs.id_eq.symm

theorem finish (hterm : isTerminal r'.state = true) (hstarted : r'.startedAtNs = r.startedAtNs) :
    Lanes live' (targets.map (TargetQueue.remove r.id)) := by
  have hst' : r'.state ≠ .pending := by
    intro hp
    rw [hp] at hterm
    cases hterm
  have hmap : ∀ (j : Nat) queue,
      (targets.map (TargetQueue.remove r.id))[j]? = some queue ↔
        ∃ before, targets[j]? = some before ∧ before.remove r.id = queue := by
    intro j queue
    rw [getElem?_map, map_eq_some_iff]
  refine ⟨fun i j queue queue' target hi hj hname hname' => ?_, fun j queue hq => ?_,
    fun x hx hst => ?_, fun x hx hrun => ?_⟩
  · obtain ⟨before, hbef, rfl⟩ := (hmap i queue).mp hi
    obtain ⟨before', hbef', rfl⟩ := (hmap j queue').mp hj
    exact h.distinct i j before before' target hbef hbef' hname hname'
  · obtain ⟨before, hbef, rfl⟩ := (hmap j queue).mp hq
    have hlane := h.lane j before hbef
    refine ⟨hlane.nodup.filter _, fun id => ?_, fun id hact => ?_⟩
    · simp only [TargetQueue.remove, mem_filter, decide_eq_true_eq]
      rw [hs.exists_iff, ← hlane.queued_iff id, and_comm]
      exact (or_iff_right fun hnew => hst' hnew.2.1).symm
    · obtain ⟨x, hx, rfl, hst, hstart, hname⟩ := hlane.active id hact
      rcases hs.kept hx with rfl | ⟨hx, -⟩
      · exact ⟨r', hs.new, hs.id_eq, hst', hstarted ▸ hstart, htarget ▸ hname⟩
      · exact ⟨x, hx, rfl, hst, hstart, hname⟩
  · rcases (hs.iff x).mp hx with rfl | ⟨hx, -⟩
    · exact absurd hst hst'
    · obtain ⟨j, before, hbef, hname⟩ := h.pending x hx hst
      exact ⟨j, _, (hmap _ _).mpr ⟨before, hbef, rfl⟩, hname⟩
  · rcases (hs.iff x).mp hx with rfl | ⟨hx, -⟩
    · rw [hrun.not_terminal] at hterm
      cases hterm
    · obtain ⟨j, before, hbef, hname, hact⟩ := h.running x hx hrun
      exact ⟨j, _, (hmap _ _).mpr ⟨before, hbef, rfl⟩, hname, hact⟩

end Replaced

theorem retire (h : Lanes live targets) (hr : live r) (hlive : ∀ x, live' x ↔ live x ∧ x.id ≠ r.id)
    (hunique : ∀ x y, live x → live y → x.id = y.id → x = y) (hterm : isTerminal r.state = true)
    (hidle : ∀ queue ∈ targets, queue.active ≠ some r.id) : Lanes live' targets := by
  refine ⟨h.distinct, fun j queue hq => ?_, fun x hx hst => ?_, fun x hx hrun => ?_⟩
  · refine (h.lane j queue hq).congr (fun x hx _ hseen => ⟨x, (hlive x).mpr ⟨hx, fun heq => ?_⟩,
      rfl, Iff.rfl, id, rfl⟩) fun y hy _ hst => ⟨y, ((hlive y).mp hy).1, rfl, hst, rfl⟩
    obtain rfl := hunique x r hx hr heq
    rcases hseen with hst | hact
    · rw [hst] at hterm
      cases hterm
    · exact hidle queue (mem_of_getElem? hq) hact
  · exact h.pending x ((hlive x).mp hx).1 hst
  · exact h.running x ((hlive x).mp hx).1 hrun

end Lanes

end Ginkgo.Kernel.Request
