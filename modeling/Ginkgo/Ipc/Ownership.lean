import Ginkgo.Ipc.Simulation.Runs

/-!
# Ownership between channels

A channel owns the channels whose endpoints are in its queues.  The graph of owners never
has a cycle, so an endpoint that is open is reachable from a handle table: no channel is
kept alive only by messages that nobody can read.
-/

namespace Ginkgo.Ipc

open Ginkgo.Lib Ginkgo.Sysapi Relation List Ipc.System

variable {n : Nat} {kinds : Set Kind} {F F' : Frame n} {past events : List (Event n)}
  {s : System n} {q : ChannelId × Side}

/-- A message queued for endpoint `p` carries a reference to endpoint `q`. -/
def System.CarriesEndpoint (s : System n) (p q : ChannelId × Side) : Prop :=
  ∃ m ∈ s.queue p.1 p.2, ∃ e ∈ m.handles, e.object.kernel = .channel q.1 q.2

theorem System.carries_iff {c d : ChannelId} :
    s.Carries c d ↔ ∃ side, ∃ m ∈ s.queue c side, ∃ e ∈ m.handles, e.channel? = some d := by
  unfold System.Carries Graph.Edge ChannelState.outgoing
  rw [mem_filterMap]
  constructor
  · rintro ⟨e, he, hchan⟩
    obtain ⟨m, hm, he⟩ := mem_flatMap.mp he
    rcases mem_append.mp hm with hm | hm
    · exact ⟨.left, m, hm, e, he, hchan⟩
    · exact ⟨.right, m, hm, e, he, hchan⟩
  · rintro ⟨side, m, hm, e, he, hchan⟩
    refine ⟨e, mem_flatMap.mpr ⟨m, ?_, he⟩, hchan⟩
    cases side with
    | left => exact mem_append_left _ hm
    | right => exact mem_append_right _ hm

theorem System.CarriesEndpoint.carries {p : ChannelId × Side} (h : s.CarriesEndpoint p q) :
    s.Carries p.1 q.1 := by
  obtain ⟨m, hm, e, he, hker⟩ := h
  exact carries_iff.mpr ⟨p.2, m, hm, e, he, channel?_eq_some.mpr ⟨q.2, hker⟩⟩

theorem QueueEffect.acyclic (h : QueueEffect F F' events)
    (hacyclic : Graph.Acyclic F.sys.Carries) : Graph.Acyclic F'.sys.Carries := by
  by_cases hsent : ∃ c side payload, events = [.sent c side payload]
  · -- the new edges leave the destination, for channels that do not reach it
    obtain ⟨c, side, payload, rfl⟩ := hsent
    refine hacyclic.insert (a := c)
      (fun u v huv => ?_) fun d hd => hd
    obtain ⟨side', m, hm, e, he, hchan⟩ := carries_iff.mp huv
    rcases h.mem_queue hm with hm | ⟨hevs, hcycle⟩
    · exact .inl (carries_iff.mpr ⟨side', m, hm, e, he, hchan⟩)
    · cases hevs
      exact .inr ⟨rfl, hcycle e he v hchan⟩
  · refine hacyclic.mono fun u v huv => ?_
    obtain ⟨side', m, hm, hrest⟩ := carries_iff.mp huv
    have hold := (h.mem_queue hm).resolve_right fun hnew => hsent ⟨_, _, _, hnew.1⟩
    exact carries_iff.mpr ⟨side', m, hold, hrest⟩

theorem System.isOpen_of_mem_queue {c : ChannelId} {side : Side} {m : KernelMessage}
    (hclosed : ∀ c side, s.isOpen c side = false → s.queue c side = [])
    (hm : m ∈ s.queue c side) : s.isOpen c side = true := by
  by_contra hside
  rw [hclosed c side (Bool.not_eq_true _ ▸ hside)] at hm
  cases hm

theorem QueueEffect.closed_empty (h : QueueEffect F F' events)
    (hclosed : ∀ c side, F.sys.isOpen c side = false → F.sys.queue c side = []) (d : ChannelId)
    (side' : Side) (hd : F'.sys.isOpen d side' = false) : F'.sys.queue d side' = [] := by
  cases h with
  | same _ _ hq hopen =>
    rw [hopen] at hd
    rw [hq]
    exact hclosed d side' hd
  | created _ _ hq hopen | closed c side _ _ _ hq hopen =>
    rw [hopen] at hd
    rw [hq]
    split
    · rfl
    · rename_i hne
      rw [if_neg hne] at hd
      exact hclosed d side' hd
  | sent c side message _ _ hside _ _ _ hq hopen =>
    rw [hopen] at hd
    rw [hq]
    split
    · rename_i heq
      rw [heq.1, heq.2, hside] at hd
      cases hd
    · exact hclosed d side' hd
  | received c side message rest _ _ hfront _ hq hopen =>
    rw [hopen] at hd
    rw [hq]
    split
    · rename_i heq
      rw [heq.1, heq.2] at hd
      have := hclosed c side hd
      rw [hfront] at this
      cases this
    · exact hclosed d side' hd

/-- Somebody has a reference to the endpoint. -/
def Frame.Named (F : Frame n) (c : ChannelId) (side : Side) : Prop :=
  ∃ e ∈ F.total, e.object.kernel = .channel c side

theorem Frame.named_of_subset {c : ChannelId} {side : Side} (h : F.Named c side)
    (hsub : ∀ e ∈ F.total, e.object.kernel = .channel c side →
      ∃ e' ∈ F'.total, e'.object = e.object) : F'.Named c side := by
  obtain ⟨e, he, hker⟩ := h
  obtain ⟨e', he', hobj⟩ := hsub e he hker
  exact ⟨e', he', by rw [hobj, hker]⟩

theorem mem_total_of_referenced {id : Nat} {rest : List HandleEntry}
    (h : s.referenced id rest = true) :
    ∃ e ∈ Frame.total ⟨s, [], rest, []⟩, e.object.id = id := by
  simp only [referenced, Bool.or_eq_true, any_eq_true, beq_iff_eq] at h
  rcases h with (⟨e, he, hid⟩ | ⟨t, _, e, he, hid⟩) | ⟨c, hc, e, he, hid⟩
  · exact ⟨e, Multiset.mem_add.mpr (.inr (Multiset.mem_coe.mpr he)), hid⟩
  · exact ⟨e, Frame.mem_total (mem_held_of_table he), hid⟩
  · refine ⟨e, Frame.mem_total ?_, hid⟩
    rw [carried_eq] at he
    obtain ⟨m, hm, he⟩ := mem_flatMap.mp he
    have hcell := mem_range.mp hc
    rcases mem_append.mp hm with hm | hm
    · exact mem_held_of_queue hcell hm he
    · exact mem_held_of_queue hcell hm he

section

variable (hnamed : ∀ c side, F.sys.isOpen c side = true → F.Named c side) (c : ChannelId)
  (side : Side) (hopen : F'.sys.isOpen c side = true)
include hnamed hopen

theorem SameCustody.named (h : SameCustody F F') : F'.Named c side := by
  unfold Frame.Named
  rw [h.total]
  rw [h.isOpen] at hopen
  exact hnamed c side hopen

theorem Release.named (h : Release F events F') (hwf : Wf F) : F'.Named c side := by
  cases h with
  | close t hparts hslot =>
    refine (hnamed c side hopen).imp fun e => And.imp_left fun he => ?_
    rwa [total_close hslot]
  | @drop s entry rest hkeep =>
    have htotal : Frame.total ⟨s, [], entry :: rest, []⟩ =
      entry ::ₘ Frame.total ⟨s, [], rest, []⟩ := by
      simp only [Frame.total, ← Multiset.cons_coe, Multiset.add_cons]
    apply Frame.named_of_subset (hnamed c side hopen)
    intro e he hker
    rw [htotal] at he
    rcases Multiset.mem_cons.mp he with rfl | he
    · rcases hkeep with hreferenced | hother
      · -- The other reference with this identity is to the same object.
        obtain ⟨e', he', hid⟩ := mem_total_of_referenced hreferenced
        refine ⟨e', he', hwf.identity e' ?_ e ?_ hid⟩
        · rw [htotal]
          exact Multiset.mem_cons_of_mem he'
        · rw [htotal]
          exact Multiset.mem_cons_self _ _
      · exact absurd hker (hother c side)
    · exact ⟨e, he, rfl⟩
  | @dropChannel s entry rest d side' hcell hlast hker =>
    rw [s.isOpen_close d c side' side] at hopen
    split at hopen
    · cases hopen
    rename_i hne
    apply Frame.named_of_subset (hnamed c side hopen)
    intro e he hker'
    refine ⟨e, ?_, rfl⟩
    rw [total_dropChannel hcell]
    simp only [Frame.total, ← Multiset.cons_coe, Multiset.add_cons] at he ⊢
    rcases Multiset.mem_cons.mp he with rfl | he
    · rw [hker] at hker'
      cases hker'
      exact absurd ⟨rfl, rfl⟩ hne
    · exact he

theorem Transfer.named (h : Transfer F events F') : F'.Named c side := by
  have heffect : TotalEffect ∅ F F' events := h.totalEffect
  have hkeep (hold : F.sys.isOpen c side = true) : F'.Named c side := by
    apply Frame.named_of_subset (hnamed c side hold)
    intro e he _
    obtain ⟨e', he', hobj, -⟩ := heffect.persists (Set.notMem_empty _) he
    exact ⟨e', he', hobj⟩
  cases h with
  | @createChannel s s1 s2 left right _ _ _ _ hs1 hleft hs2 hright =>
    by_cases hc : c = s.channels.next
    · subst hc
      unfold Frame.Named
      rw [total_createChannel hs1 hleft hs2 hright]
      cases side with
      | left => exact ⟨_, Multiset.mem_cons_of_mem (Multiset.mem_cons_self _ _), rfl⟩
      | right => exact ⟨_, Multiset.mem_cons_self _ _, rfl⟩
    · apply hkeep
      have halloc := isOpen_alloc s c side
      rw [if_neg hc] at halloc
      subst hs1 hs2
      exact halloc.symm.trans hopen
  | send c side | receive c side => exact hkeep (by rwa [isOpen_withQueue] at hopen)
  | _ => exact hkeep hopen

end

structure Owned (F : Frame n) : Prop where
  acyclic : Graph.Acyclic F.sys.Carries
  closedEmpty : ∀ c side, F.sys.isOpen c side = false → F.sys.queue c side = []
  named : ∀ c side, F.sys.isOpen c side = true → F.Named c side

theorem Owned.move (hwf : Wf F) (howned : Owned F) (h : Moves kinds F events F') : Owned F' where
  acyclic := h.queueEffect.acyclic howned.acyclic
  closedEmpty := h.queueEffect.closed_empty howned.closedEmpty
  named := by
    cases h with
    | transfer _ h => exact fun c side hopen => h.named howned.named c side hopen
    | release _ h => exact fun c side hopen => h.named howned.named c side hopen hwf
    | service _ h | wait _ h =>
      exact fun c side hopen => h.sameCustody.named howned.named c side hopen

theorem isOpen_init (c : ChannelId) (side : Side) : (System.init n).isOpen c side = false := by
  cases side <;> rfl

theorem owned_init : Owned (System.init n).frame where
  acyclic := by
    have hnone c d : ¬(init n).frame.sys.Carries c d := by
      rw [carries_iff]
      rintro ⟨side, m, hm, -⟩
      change m ∈ (init n).queue c side at hm
      rw [queue_init] at hm
      cases hm
    intro c hc
    rcases TransGen.head'_iff.mp hc with ⟨d, hcd, -⟩
    exact hnone c d hcd
  closedEmpty := fun c side _ => queue_init c side
  named := by
    intro c side hopen
    change (init n).isOpen c side = true at hopen
    rw [isOpen_init] at hopen
    cases hopen

theorem owned_of_star (h : Star (Moves kinds) (System.init n).frame events F) : Owned F := by
  have hboth := h.invariant (I := fun _ F => Wf F ∧ Owned F) ⟨wf_init, owned_init⟩ ?_
  · exact hboth.2
  · rintro past F events F' ⟨hwf, howned⟩ hmove
    exact ⟨hwf.move hmove, howned.move hwf hmove⟩

/-! ## Reachability -/

/-- A handle table has a reference to the endpoint. -/
def System.Rooted (s : System n) (p : ChannelId × Side) : Prop :=
  ∃ t, ∃ e ∈ (s.tables t).entries, e.object.kernel = .channel p.1 p.2

def System.OpenEndpoints (s : System n) : Set (ChannelId × Side) := {p | s.isOpen p.1 p.2 = true}

theorem Blank.finite_openEndpoints (h : Blank s) : s.OpenEndpoints.Finite := by
  have hsub : s.OpenEndpoints ⊆ ↑(Finset.range s.channels.next ×ˢ {Side.left, Side.right}) := by
    rintro ⟨c, side⟩ hopen
    have hcell : c < s.channels.next := by
      by_contra hlt
      have hblank := h.channels c (Nat.le_of_not_lt hlt)
      simp only [System.OpenEndpoints, Set.mem_ofPred_eq, isOpen, hblank] at hopen
      cases side <;> cases hopen
    cases side <;> simp [hcell]
  exact (Finset.finite_toSet _).subset hsub

/-- An open endpoint is named by a table or by a message for an open endpoint. -/
theorem Owned.rooted_or_carried (howned : Owned s.frame) (hq : q ∈ s.OpenEndpoints) :
    s.Rooted q ∨ ∃ p ∈ s.OpenEndpoints, s.CarriesEndpoint p q := by
  obtain ⟨e, he, hker⟩ := howned.named q.1 q.2 hq
  simp only [Frame.total, frame, Multiset.coe_nil, add_zero] at he
  rcases Multiset.mem_add.mp he with he | he
  · obtain ⟨t, -, he⟩ := Multiset.mem_sum.mp he
    exact .inl ⟨t, e, Multiset.mem_coe.mp he, hker⟩
  obtain ⟨c, -, he⟩ := Multiset.mem_sum.mp he
  obtain ⟨m, hm, he⟩ := mem_flatMap.mp he
  have hopen side (hm : m ∈ s.queue c side) := s.isOpen_of_mem_queue howned.closedEmpty hm
  rcases mem_append.mp hm with hm | hm
  · exact .inr ⟨(c, .left), hopen .left hm, m, hm, e, he, hker⟩
  · exact .inr ⟨(c, .right), hopen .right hm, m, hm, e, he, hker⟩

theorem Owned.reachable (howned : Owned s.frame) (hwf : Wf s.frame) (hq : q ∈ s.OpenEndpoints) :
    ∃ p, s.Rooted p ∧ ReflTransGen s.CarriesEndpoint p q := by
  have hacyclic : Graph.Acyclic s.CarriesEndpoint :=
    howned.acyclic.comap Prod.fst fun _ _ h => h.carries
  obtain ⟨p, -, hroot, hwalk⟩ := hacyclic.exists_root hwf.blank.finite_openEndpoints
    (fun _ hv => howned.rooted_or_carried hv) hq
  exact ⟨p, hroot, hwalk⟩

/-- In every state that a run reaches, the graph of owners has no cycle, no call of the run
asked for a lock it already held, and every open endpoint is reachable from a table: from
an endpoint named there, by reading messages queued for endpoints reached before. -/
theorem run_owners_acyclic {trace : List (Record n)} (h : Run trace s) : Graph.Acyclic s.Carries ∧
    (∀ r ∈ trace, r.outcome ≠ .error .deadlocked) ∧
    (∀ c side, s.isOpen c side = true → ∃ root : ChannelId × Side, s.Rooted root ∧
      ReflTransGen s.CarriesEndpoint root (c, side) ∧ ReflTransGen s.Carries root.1 c) := by
  have howned := owned_of_star h.simulated
  refine ⟨howned.acyclic, ?_, ?_⟩
  · intro r hr hdeadlocked
    obtain ⟨past, hpast, hstep⟩ := h.record hr
    obtain ⟨e, he⟩ := (hstep.simulated hpast.wf).2 _ hdeadlocked
    cases he
  · intro c side hopen
    obtain ⟨root, hroot, hwalk⟩ := howned.reachable h.wf (q := (c, side)) hopen
    exact ⟨root, hroot, hwalk, hwalk.lift Prod.fst fun _ _ h => h.carries⟩

/-- The end of one channel is sent through another. -/
def endpointInFlight : List (Call 1) :=
  [⟨.create (.channelCreate 0), none⟩, ⟨.create (.channelCreate 0), none⟩,
    ⟨.channel (.channelWrite 0 (handleFromParts 0 1) [] [handleFromParts 2 1]), none⟩]

theorem run_owners_acyclic_endpointInFlight :
    ((System.init 1).execAll endpointInFlight).2.isOpen 1 .left = true ∧
      ∃ root : ChannelId × Side, ((System.init 1).execAll endpointInFlight).2.Rooted root ∧
        ReflTransGen ((System.init 1).execAll endpointInFlight).2.CarriesEndpoint root
          (1, .left) := by
  have hvalid : (init 1).validAll endpointInFlight = true := by decide +kernel
  have hopen : ((init 1).execAll endpointInFlight).2.isOpen 1 .left = true := by
    decide +kernel
  obtain ⟨root, hroot, hwalk, -⟩ := (run_owners_acyclic (run_execAll hvalid)).2.2 1 .left hopen
  exact ⟨hopen, root, hroot, hwalk⟩

end Ginkgo.Ipc
