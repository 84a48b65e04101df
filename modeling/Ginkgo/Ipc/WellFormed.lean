import Ginkgo.Ipc.Effects

/-!
# Well-formed states

What every operation may assume about the state it starts in: references name cells that
exist and have names of their own, cells not allocated yet are blank, and cached messages
are empty.
-/

namespace Ginkgo.Ipc

open Ginkgo.Lib Ginkgo.Sysapi Ipc.System Multiset

variable {n : Nat} {kinds : Set Kind} {F F' : Frame n} {events : List (Event n)} {s s' : System n}

/-- Cells at or above `next` are as they were at the start. -/
structure Blank (s : System n) : Prop where
  channels : ∀ c, s.channels.next ≤ c → s.channels.cell c = .unallocated
  windows : ∀ w, s.windows.next ≤ w → s.windows.cell w = .unallocated
  processes : ∀ p, s.processes.next ≤ p → s.processes.cell p = .new
  requests : ∀ r, s.requests.next ≤ r → s.requests.cell r = .unallocated

/-- Cached messages hold neither bytes nor references. -/
def Cached (s : System n) : Prop :=
  ∀ c side, ∀ m ∈ s.freeMessages c side, m.bytes = [] ∧ m.handles = []

structure Wf (F : Frame n) : Prop where
  allocated : ∀ e ∈ F.total, e.object.kernel.Allocated F.sys
  objectBelow : ∀ e ∈ F.total, e.object.id < F.sys.nextObject
  identity : ∀ e ∈ F.total, ∀ e' ∈ F.total, e.object.id = e'.object.id → e.object = e'.object
  refBelow : ∀ e ∈ F.total, e.ref < F.sys.nextRef
  refs : (F.total.map (·.ref)).Nodup
  tables : ∀ t, (F.sys.tables t).Bounded
  queues : ∀ c side, (F.sys.queue c side).length ≤ channelQueueCapacity
  blank : Blank F.sys
  cached : Cached F.sys

/-! ## Blank cells -/

section

variable {α : Type} {h : Heap α} {blank : α} {i : Nat} {f : α → α}
  (hblank : ∀ j, h.next ≤ j → h.cell j = blank)
include hblank

theorem blank_modify (hi : i < h.next) :
    ∀ j, (h.modify i f).next ≤ j → (h.modify i f).cell j = blank := by
  intro j hj
  have hne : j ≠ i := Nat.ne_of_gt (hi.trans_le hj)
  rw [Heap.cell_modify_of_ne h f hne]
  exact hblank j hj

/-- Outside the allocated cells a change must keep the blank one. -/
theorem blank_modify_blank (hi : ¬i < h.next) (hf : f blank = blank) :
    ∀ j, (h.modify i f).next ≤ j → (h.modify i f).cell j = blank := by
  intro j hj
  rw [Heap.cell_modify]
  split
  · rw [hblank i (Nat.le_of_not_lt hi), hf]
  · exact hblank j hj

theorem blank_alloc {a : α} : ∀ j, (h.alloc a).next ≤ j → (h.alloc a).cell j = blank := by
  intro j hj
  rw [Heap.cell_alloc_of_ne h a (Nat.ne_of_gt hj)]
  exact hblank j (Nat.le_of_succ_le hj)

end

theorem Blank.transfer (hblank : Blank s) (hwindows : s'.windows = s.windows)
    (hprocesses : s'.processes = s.processes) (hreqs : s'.requests = s.requests)
    (hchannels : ∀ c, s'.channels.next ≤ c → s'.channels.cell c = .unallocated) : Blank s' where
  channels := hchannels
  windows := by rw [hwindows]; exact hblank.windows
  processes := by rw [hprocesses]; exact hblank.processes
  requests := by rw [hreqs]; exact hblank.requests

theorem SameObjects.blank (h : SameObjects s s') (hblank : Blank s) : Blank s' :=
  hblank.transfer h.windows h.processes h.requests (by rw [h.channels]; exact hblank.channels)

theorem Blank.withFacetWaiters (hblank : Blank s) (facet : WaitFacet) {waiters : List SignalWaiter}
    (hcell : ¬facet.Allocated s → waiters = []) : Blank (s.withFacetWaiters facet waiters) := by
  by_cases halloc : facet.Allocated s
  · cases facet with
    | channel => exact { hblank with channels := blank_modify hblank.channels halloc }
    | window => exact { hblank with windows := blank_modify hblank.windows halloc }
    | process => exact { hblank with processes := blank_modify hblank.processes halloc }
    | request => exact { hblank with requests := blank_modify hblank.requests halloc }
  · rw [hcell halloc]
    cases facet with
    | channel c side =>
      exact { hblank with channels := blank_modify_blank hblank.channels halloc (by
        cases side <;> rfl) }
    | window w role =>
      refine { hblank with windows := blank_modify_blank hblank.windows halloc ?_ }
      rw [hblank.windows w (Nat.le_of_not_lt halloc)]
      cases role <;> rfl
    | process =>
      exact { hblank with processes := blank_modify_blank hblank.processes halloc rfl }
    | request =>
      exact { hblank with requests := blank_modify_blank hblank.requests halloc rfl }

theorem Blank.facetWaiters (hblank : Blank s) {facet : WaitFacet} (hcell : ¬facet.Allocated s) :
    s.facetWaiters facet = [] := by
  cases facet with
  | channel c side =>
    simp only [System.facetWaiters, hblank.channels c (Nat.le_of_not_lt hcell)]
    cases side <;> rfl
  | window w role =>
    simp only [System.facetWaiters, hblank.windows w (Nat.le_of_not_lt hcell)]
    cases role <;> rfl
  | process p => simp only [System.facetWaiters, hblank.processes p (Nat.le_of_not_lt hcell)]; rfl
  | request r => simp only [System.facetWaiters, hblank.requests r (Nat.le_of_not_lt hcell)]; rfl

theorem Transfer.blank (h : Transfer F events F') (hblank : Blank F.sys) : Blank F'.sys := by
  cases h with
  | createChannel left right hs1 hleft hs2 hright =>
    subst hs1 hs2
    exact hblank.transfer rfl rfl rfl (blank_alloc hblank.channels)
  | send c side hcell | receive c side hcell =>
    exact hblank.transfer rfl rfl rfl (blank_modify hblank.channels hcell)
  | _ => exact hblank.transfer rfl rfl rfl hblank.channels

theorem Release.blank (h : Release F events F') (hblank : Blank F.sys) : Blank F'.sys := by
  cases h with
  | dropChannel c side hcell =>
    exact hblank.transfer rfl rfl rfl (blank_modify hblank.channels hcell)
  | _ => exact hblank.transfer rfl rfl rfl hblank.channels

theorem Service.blank (h : Service F events F') (hblank : Blank F.sys) : Blank F'.sys := by
  cases h with
  | silent h => exact h.blank hblank
  | cache c side hcell =>
    exact hblank.transfer rfl rfl rfl (blank_modify hblank.channels hcell)
  | newWindow => exact { hblank with windows := blank_alloc hblank.windows }
  | newProcess => exact { hblank with processes := blank_alloc hblank.processes }
  | newRequest => exact { hblank with requests := blank_alloc hblank.requests }
  | window w hcell | readPending w hcell =>
    exact { hblank with windows := blank_modify hblank.windows hcell }
  | publishProcess p _ hcell =>
    exact { hblank with processes := blank_modify hblank.processes hcell }
  | process p _ hcell => exact { hblank with processes := blank_modify hblank.processes hcell }
  | publishRequest r _ hcell | request r hcell =>
    exact { hblank with requests := blank_modify hblank.requests hcell }
  | @notify s hand doomed facet =>
    have hw : Blank (s.withFacetWaiters facet
        (notifyWaiters (s.facetWaiters facet) (s.facetSignals facet)).2) := by
      refine hblank.withFacetWaiters facet fun hcell => ?_
      rw [hblank.facetWaiters hcell]
      rfl
    exact { hw with }

theorem Wait.blank (h : Wait F events F') (hblank : Blank F.sys) : Blank F'.sys := by
  cases h with
  | silent h => exact h.blank hblank
  | observers => exact { hblank with }
  | register facet _ hcell => exact hblank.withFacetWaiters facet (fun h => absurd hcell h)
  | @unregister s facet token =>
    refine hblank.withFacetWaiters facet fun hcell => ?_
    have hnone : s.facetWaiters facet = [] := hblank.facetWaiters hcell
    rw [hnone]
    rfl

theorem Moves.blank (h : Moves kinds F events F') (hblank : Blank F.sys) : Blank F'.sys := by
  cases h with
  | transfer _ h | release _ h | service _ h | wait _ h => exact h.blank hblank

/-! ## Cached messages -/

theorem freeMessages_modifyChannel {c : ChannelId} {f : ChannelState → ChannelState}
    (h : ∀ st, (f st).freeMessages = st.freeMessages) :
    (s.modifyChannel c f).freeMessages = s.freeMessages := by
  funext d side
  exact s.cell_modifyChannel_congr (·.freeMessages.get side) c d (fun st => by rw [h st])

theorem Cached.congr (h : Cached s) (hfree : s'.freeMessages = s.freeMessages) : Cached s' := by
  unfold Cached
  rw [hfree]
  exact h

theorem Cached.withFreeMessages (h : Cached s) (c : ChannelId) (side : Side)
    {messages : List KernelMessage} (hempty : ∀ m ∈ messages, m.bytes = [] ∧ m.handles = []) :
    Cached (s.modifyChannel c (·.withFreeMessages side messages)) := by
  intro d side'
  unfold freeMessages
  rw [cell_modifyChannel]
  split
  · simp only [ChannelState.withFreeMessages, Sided.get_set]
    split
    · exact hempty
    · exact h c side'
  · exact h d side'

theorem Transfer.cached (h : Transfer F events F') (hcached : Cached F.sys) : Cached F'.sys := by
  cases h with
  | @createChannel s s1 s2 left right _ _ _ _ hs1 hleft hs2 hright =>
    subst hs1 hs2
    intro d side
    change ∀ m ∈ ((s.channels.alloc .new).cell d).freeMessages.get side, _
    rcases s.channels.cell_alloc_cases .new d with hd | ⟨-, hd⟩
    · rw [hd]
      exact hcached d side
    · rw [hd]
      simp [ChannelState.new]
  | send | receive => exact hcached.congr (freeMessages_modifyChannel fun _ => rfl)
  | _ => exact hcached.congr rfl

theorem Release.cached (h : Release F events F') (hcached : Cached F.sys) : Cached F'.sys := by
  cases h with
  | dropChannel => exact hcached.congr (freeMessages_modifyChannel fun _ => rfl)
  | _ => exact hcached.congr rfl

theorem SameObjects.freeMessages (h : SameObjects s s') : s'.freeMessages = s.freeMessages := by
  funext c side
  simp only [System.freeMessages, h.channels]

theorem Service.cached (h : Service F events F') (hcached : Cached F.sys) : Cached F'.sys := by
  cases h with
  | silent h => exact hcached.congr h.freeMessages
  | cache c side hcell hempty => exact hcached.withFreeMessages c side hempty
  | notify => exact hcached.congr (freeMessages_withFacetWaiters _ _ _)
  | _ => exact hcached.congr rfl

theorem Wait.cached (h : Wait F events F') (hcached : Cached F.sys) : Cached F'.sys := by
  cases h with
  | silent h => exact hcached.congr h.freeMessages
  | observers => exact hcached.congr rfl
  | register facet | unregister facet =>
    exact hcached.congr (freeMessages_withFacetWaiters _ _ _)

theorem Moves.cached (h : Moves kinds F events F') (hcached : Cached F.sys) : Cached F'.sys := by
  cases h with
  | transfer _ h | release _ h | service _ h | wait _ h => exact h.cached hcached

theorem QueueEffect.bounded (h : QueueEffect F F' events)
    (hqs : ∀ c side, (F.sys.queue c side).length ≤ channelQueueCapacity) (c : ChannelId)
    (side : Side) : (F'.sys.queue c side).length ≤ channelQueueCapacity := by
  cases h with
  | same _ _ hq =>
    rw [hq]
    exact hqs c side
  | created _ _ hq | closed _ _ _ _ _ hq =>
    rw [hq]
    split
    · exact Nat.zero_le _
    · exact hqs c side
  | sent _ _ _ _ _ _ hroom _ _ hq =>
    rw [hq]
    split
    · rw [List.length_append, List.length_singleton]
      omega
    · exact hqs c side
  | received d side' message rest _ _ hfront _ hq =>
    rw [hq]
    split
    · have hold := hqs d side'
      rw [hfront, List.length_cons] at hold
      omega
    · exact hqs c side

theorem TotalEffect.names (h : TotalEffect kinds F F' events) (hgrows : Grows F.sys F'.sys)
    (hwf : Wf F) :
    (∀ e ∈ F'.total, e.object.kernel.Allocated F'.sys ∧
      e.object.id < F'.sys.nextObject ∧ e.ref < F'.sys.nextRef) ∧
    (∀ e ∈ F'.total, ∀ e' ∈ F'.total, e.object.id = e'.object.id → e.object = e'.object) ∧
    (F'.total.map (·.ref)).Nodup := by
  have hold : ∀ e ∈ F.total, e.object.kernel.Allocated F'.sys ∧
      e.object.id < F'.sys.nextObject ∧ e.ref < F'.sys.nextRef := fun e he =>
    ⟨(hwf.allocated e he).mono hgrows, (hwf.objectBelow e he).trans_le hgrows.nextObject,
      (hwf.refBelow e he).trans_le hgrows.nextRef⟩
  cases h with
  | same htotal =>
    rw [htotal]
    exact ⟨hold, hwf.identity, hwf.refs⟩
  | created added htotal hevs hrefs href hobjs hobj hcell =>
    rw [htotal]
    refine ⟨fun e he => ?_, fun e he e' he' hid => ?_, ?_⟩
    · rcases mem_add.mp he with he | he
      · exact ⟨hcell e he, (hobj e he).2, (href e he).2⟩
      · exact hold e he
    · rcases mem_add.mp he with he | he <;> rcases mem_add.mp he' with he' | he'
      · exact congrArg HandleEntry.object (inj_on_of_nodup_map hobjs e he e' he' hid)
      · exact absurd hid (Nat.ne_of_gt ((hwf.objectBelow e' he').trans_le (hobj e he).1))
      · exact absurd hid (Nat.ne_of_lt ((hwf.objectBelow e he).trans_le (hobj e' he').1))
      · exact hwf.identity e he e' he' hid
    · rw [map_add, nodup_add]
      refine ⟨hrefs, hwf.refs, ?_⟩
      rw [disjoint_left]
      intro r hr hr'
      obtain ⟨e, he, rfl⟩ := mem_map.mp hr
      obtain ⟨e', he', href'⟩ := mem_map.mp hr'
      have := hwf.refBelow e' he'
      have := (href e he).1
      omega
  | taken entry rights rest hbef hafter =>
    have hent : entry ∈ F.total := hbef ▸ mem_cons_self _ _
    have hrest : ∀ e ∈ rest, e ∈ F.total := fun e he => hbef ▸ mem_cons_of_mem he
    rw [hafter]
    have hsource : ∀ e ∈ { entry with rights := rights } ::ₘ rest,
        ∃ source ∈ F.total, e.object = source.object ∧ e.ref = source.ref := by
      intro e he
      rcases mem_cons.mp he with rfl | he
      · exact ⟨entry, hent, rfl, rfl⟩
      · exact ⟨e, hrest e he, rfl, rfl⟩
    refine ⟨fun e he => ?_, fun e he e' he' hid => ?_, ?_⟩
    · obtain ⟨source, hmem, hobj, href⟩ := hsource e he
      rw [hobj, href]
      exact hold source hmem
    · obtain ⟨source, hmem, hobj, -⟩ := hsource e he
      obtain ⟨source', hmem', hobj', -⟩ := hsource e' he'
      rw [hobj, hobj'] at hid ⊢
      exact hwf.identity source hmem source' hmem' hid
    · have hrefs := hwf.refs
      rw [hbef] at hrefs
      simpa only [map_cons] using hrefs
  | cloned entry new hent htotal hobj hrights hfresh href =>
    rw [htotal]
    have hsource : ∀ e ∈ new ::ₘ F.total, ∃ source ∈ F.total, e.object = source.object := by
      intro e he
      rcases mem_cons.mp he with rfl | he
      · exact ⟨entry, hent, hobj⟩
      · exact ⟨e, he, rfl⟩
    refine ⟨fun e he => ?_, fun e he e' he' hid => ?_, ?_⟩
    · rcases mem_cons.mp he with rfl | he
      · have hent' := hold entry hent
        rw [hobj]
        exact ⟨hent'.1, hent'.2.1, href⟩
      · exact hold e he
    · obtain ⟨source, hmem, hobj⟩ := hsource e he
      obtain ⟨source', hmem', hobj'⟩ := hsource e' he'
      rw [hobj, hobj'] at hid ⊢
      exact hwf.identity source hmem source' hmem' hid
    · rw [map_cons, nodup_cons]
      refine ⟨fun hmem => ?_, hwf.refs⟩
      obtain ⟨e, he, heq⟩ := mem_map.mp hmem
      have := hfresh e he
      omega
  | dropped _ entry htotal =>
    have hsub : ∀ e ∈ F'.total, e ∈ F.total := fun e he =>
      htotal ▸ mem_cons_of_mem he
    refine ⟨fun e he => hold e (hsub e he), fun e he e' he' =>
      hwf.identity e (hsub e he) e' (hsub e' he'), ?_⟩
    have hrefs := hwf.refs
    rw [htotal, map_cons, nodup_cons] at hrefs
    exact hrefs.2

theorem Wf.move (hwf : Wf F) (h : Moves kinds F events F') : Wf F' := by
  obtain ⟨hall, hident, hrefs⟩ := h.totalEffect.names h.grows hwf
  exact {
    allocated := fun e he => (hall e he).1
    objectBelow := fun e he => (hall e he).2.1
    identity := hident
    refBelow := fun e he => (hall e he).2.2
    refs := hrefs
    tables := fun t => HandleTable.bounded_of_star (h.tableSteps t) (hwf.tables t)
    queues := h.queueEffect.bounded hwf.queues
    blank := h.blank hwf.blank
    cached := h.cached hwf.cached }

theorem Wf.star (hwf : Wf F) (h : Star (Moves kinds) F events F') : Wf F' :=
  h.invariant (I := fun _ F => Wf F) hwf fun _ _ _ _ ih hmove => ih.move hmove

theorem held_init : (System.init n).held = 0 := by
  simp [held, init, HandleTable.entries, HandleTable.new]

theorem total_init : (System.init n).frame.total = 0 := by
  simp [Frame.total, frame, held_init]

theorem queue_init (c : ChannelId) (side : Side) : (System.init n).queue c side = [] := by
  cases side <;> rfl

theorem wf_init : Wf (System.init n).frame where
  allocated := by simp [total_init]
  objectBelow := by simp [total_init]
  identity := by simp [total_init]
  refBelow := by simp [total_init]
  refs := by simp [total_init]
  tables := fun _ => HandleTable.bounded_new
  queues := by
    intro c side
    have hnil : (init n).frame.sys.queue c side = [] := queue_init c side
    rw [hnil]
    exact Nat.zero_le _
  blank := ⟨fun _ _ => rfl, fun _ _ => rfl, fun _ _ => rfl, fun _ _ => rfl⟩
  cached := by
    intro c side m hm
    change m ∈ ChannelState.unallocated.freeMessages.get side at hm
    simp [ChannelState.unallocated] at hm

end Ginkgo.Ipc
