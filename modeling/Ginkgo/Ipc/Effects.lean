import Ginkgo.Ipc.Custody
import Ginkgo.Ipc.TableRuns

/-!
# What a move can do

One inversion lemma for each part of the state.  Invariants are proved from these and do
not split the moves again.
-/

namespace Ginkgo.Ipc

open Ginkgo.Lib Ginkgo.Sysapi Ipc.System Multiset

variable {n : Nat} {kinds : Set Kind} {F F' : Frame n} {events : List (Event n)} {s : System n}
  {t : Fin n} {e : HandleEntry} {s' : System n}

/-! ## Services leave references alone -/

structure SameCustody (F F' : Frame n) : Prop where
  tables : F'.sys.tables = F.sys.tables
  next : F'.sys.channels.next = F.sys.channels.next
  queue : F'.sys.queue = F.sys.queue
  isOpen : F'.sys.isOpen = F.sys.isOpen
  hand : F'.hand = F.hand
  doomed : F'.doomed = F.doomed
  nextObject : F.sys.nextObject ≤ F'.sys.nextObject
  nextRef : F.sys.nextRef ≤ F'.sys.nextRef

theorem SameCustody.of_sys {hand doomed : List HandleEntry}
    {dirty dirty' : List WaitFacet} (htabs : s'.tables = s.tables)
    (hchannels : s'.channels = s.channels) (hobj : s.nextObject ≤ s'.nextObject)
    (href : s.nextRef ≤ s'.nextRef) :
    SameCustody ⟨s, hand, doomed, dirty⟩ ⟨s', hand, doomed, dirty'⟩ where
  tables := htabs
  next := by rw [hchannels]
  queue := by funext c side; simp only [System.queue, hchannels]
  isOpen := by funext c side; simp only [System.isOpen, hchannels]
  hand := rfl
  doomed := rfl
  nextObject := hobj
  nextRef := href

theorem SameCustody.of_waiters {hand doomed : List HandleEntry} {dirty dirty' : List WaitFacet}
    (facet : WaitFacet) (waiters : List SignalWaiter) :
    SameCustody ⟨s, hand, doomed, dirty⟩
      ⟨s.withFacetWaiters facet waiters, hand, doomed, dirty'⟩ where
  tables := by simp
  next := by simp
  queue := by simp
  isOpen := by simp
  hand := rfl
  doomed := rfl
  nextObject := by simp
  nextRef := by simp

theorem Service.sameCustody (h : Service F events F') : SameCustody F F' := by
  cases h with
  | silent h => exact .of_sys h.tables h.channels h.nextObject h.nextRef
  | @cache s hand dirty c side messages =>
    refine ⟨rfl, rfl, ?_, ?_, rfl, rfl, le_rfl, le_rfl⟩
    · funext d side'
      exact s.cell_modifyChannel_congr (·.queues.get side') c d (fun _ => rfl)
    · funext d side'
      exact s.cell_modifyChannel_congr (·.isOpen.get side') c d (fun _ => rfl)
  | @notify s hand doomed facet dirty =>
    have hwaiters : SameCustody ⟨s, hand, doomed, facet :: dirty⟩
        ⟨s.withFacetWaiters facet (notifyWaiters (s.facetWaiters facet)
          (s.facetSignals facet)).2, hand, doomed, dirty⟩ := .of_waiters facet _
    exact { hwaiters with }
  | _ => exact .of_sys rfl rfl le_rfl le_rfl

theorem Wait.sameCustody (h : Wait F events F') : SameCustody F F' := by
  cases h with
  | silent h => exact .of_sys h.tables h.channels h.nextObject h.nextRef
  | observers => exact .of_sys rfl rfl le_rfl le_rfl
  | register facet | unregister facet => exact .of_waiters facet _

theorem Service.isWindow (h : Service F events F') : ∀ e ∈ events, e.isWindow = true := by
  cases h with
  | window w hcell hstep => cases hstep <;> simp [Event.isWindow]
  | _ => simp

theorem Wait.events_eq_nil (h : Wait F events F') : events = [] := by
  cases h <;> rfl

theorem SameCustody.total (h : SameCustody F F') : F'.total = F.total := by
  unfold Frame.total
  rw [held_congr h.tables h.next h.queue, h.hand, h.doomed]

/-! ## Names only grow -/

structure Grows (s s' : System n) : Prop where
  channels : s.channels.next ≤ s'.channels.next
  windows : s.windows.next ≤ s'.windows.next
  processes : s.processes.next ≤ s'.processes.next
  requests : s.requests.next ≤ s'.requests.next
  nextObject : s.nextObject ≤ s'.nextObject
  nextRef : s.nextRef ≤ s'.nextRef

theorem Grows.withFacetWaiters (s : System n) (facet : WaitFacet)
    (waiters : List SignalWaiter) : Grows s (s.withFacetWaiters facet waiters) where
  channels := by simp
  windows := by simp
  processes := by simp
  requests := by simp
  nextObject := by simp
  nextRef := by simp

theorem SameObjects.grows (h : SameObjects s s') : Grows s s' where
  channels := by rw [h.channels]
  windows := by rw [h.windows]
  processes := by rw [h.processes]
  requests := by rw [h.requests]
  nextObject := h.nextObject
  nextRef := h.nextRef

theorem Grows.refl (s : System n) : Grows s s := ⟨le_rfl, le_rfl, le_rfl, le_rfl, le_rfl, le_rfl⟩

theorem Transfer.grows (h : Transfer F events F') : Grows F.sys F'.sys := by
  cases h with
  | create => exact { Grows.refl _ with nextObject := Nat.le_succ _, nextRef := Nat.le_succ _ }
  | createChannel left right hs1 hleft hs2 hright =>
    subst hs1 hs2
    exact ⟨Nat.le_succ _, le_rfl, le_rfl, le_rfl, Nat.le_add_right _ 2, Nat.le_add_right _ 2⟩
  | _ => exact { Grows.refl _ with }

theorem Service.grows (h : Service F events F') : Grows F.sys F'.sys := by
  cases h with
  | silent h => exact h.grows
  | newWindow => exact { Grows.refl _ with windows := Nat.le_succ _ }
  | newProcess => exact { Grows.refl _ with processes := Nat.le_succ _ }
  | newRequest => exact { Grows.refl _ with requests := Nat.le_succ _ }
  | @notify s hand doomed facet =>
    have h := Grows.withFacetWaiters s facet
      (notifyWaiters (s.facetWaiters facet) (s.facetSignals facet)).2
    exact { h with }
  | _ => exact { Grows.refl _ with }

theorem Release.grows (h : Release F events F') : Grows F.sys F'.sys := by
  cases h <;> exact { Grows.refl _ with }

theorem Wait.grows (h : Wait F events F') : Grows F.sys F'.sys := by
  cases h with
  | silent h => exact h.grows
  | observers => exact { Grows.refl _ with }
  | @register s facet | @unregister s facet => exact Grows.withFacetWaiters s facet _

theorem Moves.grows (h : Moves kinds F events F') : Grows F.sys F'.sys := by
  cases h with
  | transfer _ h | release _ h | service _ h | wait _ h => exact h.grows

theorem KernelObject.Allocated.mono {kernel : KernelObject} (h : kernel.Allocated s)
    (hgrows : Grows s s') : kernel.Allocated s' := by
  cases kernel with
  | channel => exact h.trans_le hgrows.channels
  | window => exact h.trans_le hgrows.windows
  | process => exact h.trans_le hgrows.processes
  | request => exact h.trans_le hgrows.requests
  | _ => trivial

/-! ## Where references come from -/

theorem total_create {i generation : Nat} {kernel : KernelObject} {rights : Rights}
    (h : (s.tables t).VacantAt i generation) :
    Frame.total ({ s with nextObject := s.nextObject + 1, nextRef := s.nextRef + 1 }.withTable t
        ((s.tables t).fill i generation ⟨⟨s.nextObject, kernel⟩, rights, s.nextRef⟩)).frame =
      ⟨⟨s.nextObject, kernel⟩, rights, s.nextRef⟩ ::ₘ s.frame.total := by
  have hheld := held_fill (e := ⟨⟨s.nextObject, kernel⟩, rights, s.nextRef⟩) h
  simp only [Frame.total, frame, coe_nil, add_zero]
  exact hheld

theorem total_createChannel {s1 s2 : System n} {left right : Fin n}
    {leftIndex leftGeneration rightIndex rightGeneration : Nat} {e' : HandleEntry}
    (hs1 : s1 = { s with
      channels := s.channels.alloc .new
      nextObject := s.nextObject + 2
      nextRef := s.nextRef + 2 }) (hleft : (s1.tables left).VacantAt leftIndex leftGeneration)
    (hs2 : s2 = s1.withTable left ((s1.tables left).fill leftIndex leftGeneration e))
    (hright : (s2.tables right).VacantAt rightIndex rightGeneration) :
    Frame.total (s2.withTable right ((s2.tables right).fill rightIndex rightGeneration e')).frame =
      e' ::ₘ e ::ₘ s.frame.total := by
  have hnew : s1.held = s.held := by
    subst hs1
    exact s.held_alloc_channel
  have hfirst : s2.held = e ::ₘ s.held := by
    subst hs2
    rw [s1.held_fill hleft, hnew]
  simp only [Frame.total, frame, coe_nil, add_zero, s2.held_fill hright, hfirst]

/-- How a move of one of the kinds in `kinds` changes the collection of all references. -/
inductive TotalEffect (kinds : Set Kind) (F F' : Frame n) (events : List (Event n)) : Prop
  | same (htotal : F'.total = F.total)
  | created (added : Multiset HandleEntry) (htotal : F'.total = added + F.total)
      (hevents : ∀ e ∈ added, ∃ t, Event.created t e.object e.rights ∈ events)
      (hrefs : (added.map (·.ref)).Nodup)
      (href : ∀ e ∈ added, F.sys.nextRef ≤ e.ref ∧ e.ref < F'.sys.nextRef)
      (hobjects : (added.map (·.object.id)).Nodup)
      (hobject : ∀ e ∈ added, F.sys.nextObject ≤ e.object.id ∧ e.object.id < F'.sys.nextObject)
      (hcell : ∀ e ∈ added, e.object.kernel.Allocated F'.sys)
  | taken (entry : HandleEntry) (rights : Rights) (rest : Multiset HandleEntry)
      (hbefore : F.total = entry ::ₘ rest)
      (hafter : F'.total = { entry with rights := rights } ::ₘ rest)
      (hrights : Bitflags.contains entry.rights rights = true)
  | cloned (entry new : HandleEntry) (hentry : entry ∈ F.total)
      (htotal : F'.total = new ::ₘ F.total) (hobject : new.object = entry.object)
      (hrights : Bitflags.contains entry.rights new.rights = true)
      (hfresh : ∀ e ∈ F.total, e.ref < new.ref) (href : new.ref < F'.sys.nextRef)
  | dropped (hkind : Kind.release ∈ kinds) (entry : HandleEntry)
      (htotal : F.total = entry ::ₘ F'.total)

theorem Frame.mem_total (h : e ∈ F.sys.held) : e ∈ F.total :=
  mem_add.mpr (.inl (mem_add.mpr (.inl h)))

theorem Transfer.totalEffect (h : Transfer F events F') : TotalEffect kinds F F' events := by
  cases h with
  | @grow s hand doomed dirty t count hfits =>
    refine .same ?_
    simp only [Frame.total, s.held_grow]
  | @create s t i generation kernel rights hvac hker hcell hrights =>
    refine .created {⟨⟨s.nextObject, kernel⟩, rights, s.nextRef⟩} ?_ ?_ ?_ ?_ ?_ ?_ ?_
    · rw [total_create hvac, singleton_add]
    · simp only [mem_singleton, forall_eq]
      exact ⟨t, List.mem_cons_self⟩
    · simp
    · simp only [mem_singleton, forall_eq]
      exact ⟨le_rfl, Nat.lt_succ_self _⟩
    · simp
    · simp only [mem_singleton, forall_eq]
      exact ⟨le_rfl, Nat.lt_succ_self _⟩
    · simp only [mem_singleton, forall_eq]
      exact hcell.mono ⟨le_rfl, le_rfl, le_rfl, le_rfl, Nat.le_succ _, Nat.le_succ _⟩
  | @createChannel s s1 s2 left right _ _ _ _ hs1 hleft hs2 hright =>
    refine .created (⟨⟨s.nextObject + 1, .channel s.channels.next .right⟩,
      channelDefaultRights, s.nextRef + 1⟩ ::ₘ {⟨⟨s.nextObject,
      .channel s.channels.next .left⟩, channelDefaultRights, s.nextRef⟩}) ?_ ?_ ?_ ?_ ?_ ?_ ?_
    · rw [total_createChannel hs1 hleft hs2 hright, cons_add, singleton_add]
    · simp only [mem_cons, mem_singleton, forall_eq_or_imp, forall_eq]
      exact ⟨⟨right, by simp⟩, ⟨left, by simp⟩⟩
    · simp
    · simp only [mem_cons, mem_singleton, forall_eq_or_imp, forall_eq]
      subst hs1 hs2
      simp only [frame, withTable]
      omega
    · simp
    · simp only [mem_cons, mem_singleton, forall_eq_or_imp, forall_eq]
      subst hs1 hs2
      simp only [frame, withTable]
      omega
    · simp only [mem_cons, mem_singleton, forall_eq_or_imp, forall_eq]
      subst hs1 hs2
      exact ⟨Nat.lt_succ_self _, Nat.lt_succ_self _⟩
  | take t hslot hxfer hrights =>
    obtain ⟨rest, hbef, hafter⟩ := total_take hslot
    exact .taken _ _ rest hbef hafter hrights
  | clone t hslot hdup hrights href hfresh =>
    exact .cloned _ _ (Frame.mem_total (mem_held_of_occupied hslot)) total_clone rfl hrights
      hfresh href
  | install t hvac => exact .same (total_install hvac)
  | send c side hcell => exact .same (total_send hcell)
  | receive c side hcell hq => exact .same (total_receive hcell hq)

theorem Release.totalEffect (h : Release F events F') (hkind : Kind.release ∈ kinds) :
    TotalEffect kinds F F' events := by
  cases h with
  | close t hparts hslot => exact .same (total_close hslot)
  | @drop s entry rest =>
    refine .dropped hkind entry ?_
    simp only [Frame.total, ← cons_coe, add_cons]
  | @dropChannel s entry rest c side hcell =>
    refine .dropped hkind entry ?_
    rw [total_dropChannel hcell]
    simp only [Frame.total, ← cons_coe, add_cons]

theorem Moves.totalEffect (h : Moves kinds F events F') : TotalEffect kinds F F' events := by
  cases h with
  | transfer _ h => exact h.totalEffect
  | release hkind h => exact h.totalEffect hkind
  | service _ h | wait _ h => exact .same h.sameCustody.total

/-- A reference was there before with at least its rights, or its object is new. -/
theorem TotalEffect.origin (h : TotalEffect kinds F F' events) (he : e ∈ F'.total) :
    (∃ source ∈ F.total, e.object = source.object ∧
        Bitflags.contains source.rights e.rights = true) ∨
      ∃ t, Event.created t e.object e.rights ∈ events := by
  have hself hmem : ∃ source ∈ F.total, e.object = source.object ∧
      Bitflags.contains source.rights e.rights = true :=
    ⟨e, hmem, rfl, Bitflags.contains_self _⟩
  cases h with
  | same htotal => exact .inl (hself (htotal ▸ he))
  | created added htotal hevs =>
    rw [htotal, mem_add] at he
    rcases he with he | he
    · exact .inr (hevs e he)
    · exact .inl (hself he)
  | taken entry rights rest hbef hafter hrights =>
    rw [hafter, mem_cons] at he
    rw [hbef] at hself ⊢
    rcases he with rfl | he
    · exact .inl ⟨entry, mem_cons_self _ _, rfl, hrights⟩
    · exact .inl (hself (mem_cons_of_mem he))
  | cloned entry new hent htotal hobj hrights =>
    rw [htotal, mem_cons] at he
    rcases he with rfl | he
    · exact .inl ⟨entry, hent, hobj, hrights⟩
    · exact .inl (hself he)
  | dropped _ entry htotal =>
    refine .inl (hself ?_)
    rw [htotal]
    exact mem_cons_of_mem he

theorem TotalEffect.persists (h : TotalEffect kinds F F' events) (hkinds : Kind.release ∉ kinds)
    (he : e ∈ F.total) : ∃ e' ∈ F'.total, e'.object = e.object ∧ e'.ref = e.ref := by
  cases h with
  | same htotal => exact ⟨e, htotal ▸ he, rfl, rfl⟩
  | created added htotal =>
    rw [htotal]
    exact ⟨e, mem_add.mpr (.inr he), rfl, rfl⟩
  | taken entry rights rest hbef hafter =>
    rw [hbef] at he
    rw [hafter]
    rcases mem_cons.mp he with rfl | he
    · exact ⟨_, mem_cons_self _ _, rfl, rfl⟩
    · exact ⟨e, mem_cons_of_mem he, rfl, rfl⟩
  | cloned entry new hent htotal =>
    rw [htotal]
    exact ⟨e, mem_cons_of_mem he, rfl, rfl⟩
  | dropped hkind => exact absurd hkind hkinds

/-! ## What happens to a table -/

theorem issuedAt_of_isWindow (h : ∀ e ∈ events, e.isWindow = true) : issuedAt t events = [] := by
  refine List.filterMap_eq_nil_iff.mpr fun e he => ?_
  have := h e he
  cases e <;> simp_all [Event.isWindow, Event.issuedAt?]

theorem star_withTable {u : Fin n} {table : HandleTable} {handles : List Handle}
    (h : TableStep (s.tables u) handles table) :
    Star TableStep (s.tables t) (if u = t then handles else [])
    ((s.withTable u table).tables t) := by
  by_cases hut : u = t
  · subst hut
    rw [if_pos rfl, tables_withTable_self]
    exact .single h
  · rw [if_neg hut, tables_withTable_of_ne _ _ (Ne.symm hut)]
    exact .refl _

theorem issuedAt_issued {u : Fin n} {handle : Handle} :
    issuedAt t [.issued u handle] = if u = t then [handle] else [] := by
  by_cases hut : u = t <;> simp [issuedAt, Event.issuedAt?, hut]

theorem issuedAt_created {u : Fin n} {object : Object} {rights : Rights} :
    issuedAt t (.created u object rights :: events) = issuedAt t events := rfl

theorem Transfer.tableSteps (h : Transfer F events F') (t : Fin n) :
    Star TableStep (F.sys.tables t) (issuedAt t events) (F'.sys.tables t) := by
  cases h with
  | @grow s hand doomed dirty u count hfits =>
    have hstep := star_withTable (t := t) (TableStep.grow hfits)
    rwa [ite_self] at hstep
  | @create s u i generation kernel rights hvac =>
    rw [issuedAt_created, issuedAt_issued]
    exact star_withTable (TableStep.fill hvac)
  | @createChannel s s1 s2 left right leftIndex leftGeneration rightIndex rightGeneration hs1
      hleft hs2 hright =>
      have hfirst : Star TableStep (s1.tables t)
          (issuedAt t [.issued left (handleFromParts leftIndex leftGeneration)]) (s2.tables t) := by
        rw [issuedAt_issued, hs2]
        exact star_withTable (TableStep.fill hleft)
      have htabs : s1.tables = s.tables := by rw [hs1]
      rw [htabs] at hfirst
      rw [issuedAt_created, ← List.singleton_append, issuedAt_append]
      refine hfirst.trans ?_
      rw [issuedAt_created, issuedAt_issued]
      exact star_withTable (TableStep.fill hright)
  | @take s hand u i generation entry rights hslot =>
    have hstep := star_withTable (t := t) (TableStep.vacate hslot)
    rwa [ite_self] at hstep
  | clone | send | receive => exact .refl _
  | @install s entry hand dirty u i generation hvac =>
    rw [issuedAt_issued]
    exact star_withTable (TableStep.fill hvac)

theorem Release.tableSteps (h : Release F events F') (t : Fin n) :
    Star TableStep (F.sys.tables t) (issuedAt t events) (F'.sys.tables t) := by
  cases h with
  | @close s u handle i generation entry hparts hslot =>
    have hstep := star_withTable (t := t) (TableStep.vacate hslot)
    rw [ite_self] at hstep
    exact hstep
  | drop | dropChannel => exact .refl _

theorem Moves.tableSteps (h : Moves kinds F events F') (t : Fin n) :
    Star TableStep (F.sys.tables t) (issuedAt t events) (F'.sys.tables t) := by
  cases h with
  | transfer _ h => exact h.tableSteps t
  | release _ h => exact h.tableSteps t
  | service _ h =>
    rw [issuedAt_of_isWindow h.isWindow, h.sameCustody.tables]
    exact .refl _
  | wait _ h =>
    rw [h.events_eq_nil, h.sameCustody.tables]
    exact .refl _

/-! ## What happens to the queues -/

/-- No message was sent or received. -/
def NoTraffic (events : List (Event n)) : Prop :=
  ∀ c side, sentAt c side events = [] ∧ receivedAt c side events = []

theorem noTraffic_of_isWindow (h : ∀ e ∈ events, e.isWindow = true) : NoTraffic events := by
  intro c side
  constructor
  · refine List.filterMap_eq_nil_iff.mpr fun e he => ?_
    have := h e he
    cases e <;> simp_all [Event.isWindow, Event.sentAt?]
  · refine List.filterMap_eq_nil_iff.mpr fun e he => ?_
    have := h e he
    cases e <;> simp_all [Event.isWindow, Event.receivedAt?]

inductive QueueEffect (F F' : Frame n) (events : List (Event n)) : Prop
  | same (htraffic : NoTraffic events) (hnext : F'.sys.channels.next = F.sys.channels.next)
      (hqueue : F'.sys.queue = F.sys.queue) (hopen : F'.sys.isOpen = F.sys.isOpen)
  | created (htraffic : NoTraffic events) (hnext : F'.sys.channels.next = F.sys.channels.next + 1)
      (hqueue : ∀ d side, F'.sys.queue d side =
        if d = F.sys.channels.next then [] else F.sys.queue d side)
      (hopen : ∀ d side, F'.sys.isOpen d side =
        if d = F.sys.channels.next then true else F.sys.isOpen d side)
  | sent (c : ChannelId) (side : Side) (message : KernelMessage)
      (hevents : events = [.sent c side message.payload])
      (hcell : c < F.sys.channels.next) (hside : F.sys.isOpen c side = true)
      (hroom : (F.sys.queue c side).length < channelQueueCapacity)
      (hcycle : ∀ e ∈ message.handles, ∀ d, e.channel? = some d →
        ¬Relation.ReflTransGen F.sys.Carries d c)
      (hnext : F'.sys.channels.next = F.sys.channels.next)
      (hqueue : ∀ d side', F'.sys.queue d side' =
        if d = c ∧ side' = side then F.sys.queue c side ++ [message] else F.sys.queue d side')
      (hopen : F'.sys.isOpen = F.sys.isOpen)
  | received (c : ChannelId) (side : Side) (message : KernelMessage) (rest : List KernelMessage)
      (hevents : events = [.received c side message.payload])
      (hcell : c < F.sys.channels.next) (hfront : F.sys.queue c side = message :: rest)
      (hnext : F'.sys.channels.next = F.sys.channels.next)
      (hqueue : ∀ d side', F'.sys.queue d side' =
        if d = c ∧ side' = side then rest else F.sys.queue d side')
      (hopen : F'.sys.isOpen = F.sys.isOpen)
  | closed (c : ChannelId) (side : Side) (hevents : events = []) (hcell : c < F.sys.channels.next)
      (hnext : F'.sys.channels.next = F.sys.channels.next)
      (hqueue : ∀ d side', F'.sys.queue d side' =
        if d = c ∧ side' = side then [] else F.sys.queue d side')
      (hopen : ∀ d side', F'.sys.isOpen d side' =
        if d = c ∧ side' = side then false else F.sys.isOpen d side')

/-- A queued message was queued before, or the move sent it and closed no cycle by it. -/
theorem QueueEffect.mem_queue (h : QueueEffect F F' events) {d : ChannelId} {side : Side}
    {m : KernelMessage} (hm : m ∈ F'.sys.queue d side) :
    m ∈ F.sys.queue d side ∨ events = [.sent d side m.payload] ∧
      ∀ e ∈ m.handles, ∀ c, e.channel? = some c → ¬Relation.ReflTransGen F.sys.Carries c d := by
  cases h with
  | same _ _ hq =>
    rw [hq] at hm
    exact .inl hm
  | created _ _ hq | closed _ _ _ _ _ hq =>
    rw [hq] at hm
    split at hm
    · cases hm
    · exact .inl hm
  | sent c side' message hevs _ _ _ hcycle _ hq =>
    rw [hq] at hm
    split at hm
    · rename_i heq
      obtain ⟨rfl, rfl⟩ := heq
      rcases List.mem_append.mp hm with hm | hm
      · exact .inl hm
      · obtain rfl := List.mem_singleton.mp hm
        exact .inr ⟨hevs, hcycle⟩
    · exact .inl hm
  | received c side' message rest _ _ hfront _ hq =>
    rw [hq] at hm
    split at hm
    · rename_i heq
      rw [heq.1, heq.2, hfront]
      exact .inl (List.mem_cons_of_mem _ hm)
    · exact .inl hm

theorem isOpen_withQueue (s : System n) (c : ChannelId) (side : Side) (q : List KernelMessage) :
    (s.modifyChannel c (·.withQueue side q)).isOpen = s.isOpen := by
  funext d side'
  exact s.cell_modifyChannel_congr (·.isOpen.get side') c d (fun _ => rfl)

theorem queue_alloc (s : System n) (d : ChannelId) (side : Side) :
    ((s.channels.alloc .new).cell d).queues.get side =
      if d = s.channels.next then [] else s.queue d side := by
  by_cases hd : d = s.channels.next
  · simp [hd, ChannelState.new]
  · rw [Heap.cell_alloc_of_ne _ _ hd, if_neg hd]
    rfl

theorem isOpen_alloc (s : System n) (d : ChannelId) (side : Side) :
    ((s.channels.alloc .new).cell d).isOpen.get side =
      if d = s.channels.next then true else s.isOpen d side := by
  by_cases hd : d = s.channels.next
  · simp [hd, ChannelState.new]
  · rw [Heap.cell_alloc_of_ne _ _ hd, if_neg hd]
    rfl

theorem Transfer.queueEffect (h : Transfer F events F') : QueueEffect F F' events := by
  cases h with
  | @createChannel s s1 s2 left right _ _ _ _ hs1 hleft hs2 hright =>
    subst hs1 hs2
    exact .created (fun _ _ => ⟨rfl, rfl⟩) rfl (queue_alloc s) (isOpen_alloc s)
  | @send s c side message hcell hopen hroom hcycle =>
    exact .sent c side message rfl hcell hopen hroom hcycle rfl
      (fun d side' => s.queue_withQueue c d side side' _) (isOpen_withQueue s c side _)
  | @receive s c side message rest hcell hq =>
    exact .received c side message rest rfl hcell hq rfl
      (fun d side' => s.queue_withQueue c d side side' _) (isOpen_withQueue s c side _)
  | _ => exact .same (fun _ _ => ⟨rfl, rfl⟩) rfl rfl rfl

theorem Release.queueEffect (h : Release F events F') : QueueEffect F F' events := by
  cases h with
  | @dropChannel s entry rest c side hcell hlast hker =>
    exact .closed c side rfl hcell rfl (fun d side' => s.queue_close c d side side')
      (fun d side' => s.isOpen_close c d side side')
  | _ => exact .same (fun _ _ => ⟨rfl, rfl⟩) rfl rfl rfl

theorem SameCustody.queueEffect (h : SameCustody F F') (htraffic : NoTraffic events) :
    QueueEffect F F' events :=
  .same htraffic h.next h.queue h.isOpen

theorem Moves.queueEffect (h : Moves kinds F events F') : QueueEffect F F' events := by
  cases h with
  | transfer _ h => exact h.queueEffect
  | release _ h => exact h.queueEffect
  | service _ h => exact h.sameCustody.queueEffect (noTraffic_of_isWindow h.isWindow)
  | wait _ h =>
    rw [h.events_eq_nil]
    exact h.sameCustody.queueEffect fun _ _ => ⟨rfl, rfl⟩

end Ginkgo.Ipc
