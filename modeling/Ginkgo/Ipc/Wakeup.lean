import Ginkgo.Ipc.Simulation.Runs

/-!
# No lost wakeups

A waiter is retained only while the level of its facet does not meet it.  A move may raise
the levels of the facets it leaves dirty and lowers all others, and every dirty facet is
notified before the call ends.  So at the end of a call no retained waiter is met, and one
that was met on the way has been taken and its observer told.
-/

namespace Ginkgo.Ipc

open Ginkgo.Lib Ginkgo.Sysapi List Ipc.System Bitflags WindowState

variable {n : Nat} {kinds : Set Kind} {F F' : Frame n} {events : List (Event n)}
  {s s' : System n} {hand hand' doomed doomed' : List HandleEntry} {dirty : List WaitFacet}
  {st : WindowState}

/-! ## Facets -/

theorem facet_congr (hchannels : s'.channels = s.channels) (hwindows : s'.windows = s.windows)
    (hprocesses : s'.processes = s.processes) (hreqs : s'.requests = s.requests) :
    s'.facetSignals = s.facetSignals ∧ s'.facetWaiters = s.facetWaiters := by
  constructor
  · funext facet
    cases facet <;> simp only [facetSignals, hchannels, hwindows, hprocesses, hreqs]
  · funext facet
    cases facet <;> simp only [facetWaiters, hchannels, hwindows, hprocesses, hreqs]

theorem windowRoleIndex_inj {role role' : WindowRole}
    (h : windowRoleIndex role = windowRoleIndex role') : role = role' := by
  cases role <;> cases role' <;> first | rfl | cases h

theorem facetWaiters_withFacetWaiters_self (facet : WaitFacet) (waiters : List SignalWaiter) :
    (s.withFacetWaiters facet waiters).facetWaiters facet = waiters := by
  cases facet with
  | channel c side =>
    simp [withFacetWaiters, facetWaiters, cell_modifyChannel, ChannelState.withWaiters]
  | window w role =>
    simp [withFacetWaiters, facetWaiters, cell_setWindow,
      withWaiters]
  | process p | request r => simp [withFacetWaiters, facetWaiters]

theorem facetWaiters_withFacetWaiters_of_ne {facet other : WaitFacet} (hne : other ≠ facet)
    (waiters : List SignalWaiter) :
    (s.withFacetWaiters facet waiters).facetWaiters other = s.facetWaiters other := by
  cases facet with
  | channel c side =>
    cases other with
    | channel d side' =>
      simp only [withFacetWaiters, facetWaiters, cell_modifyChannel]
      split
      · rename_i hd
        subst hd
        exact (Sided.get_set ..).trans (if_neg fun heq => hne (by rw [heq]))
      · rfl
    | _ => rfl
  | window w role =>
    cases other with
    | window v role' =>
      simp only [withFacetWaiters, facetWaiters, cell_setWindow]
      split
      · rename_i hv
        subst hv
        exact (Sided.get_set ..).trans (if_neg fun heq => hne (by rw [windowRoleIndex_inj heq]))
      · rfl
    | _ => rfl
  | process p =>
    cases other with
    | process q =>
      have hq : q ≠ p := fun heq => hne (by rw [heq])
      simp only [withFacetWaiters, facetWaiters, Heap.cell_modify_of_ne _ _ hq]
    | _ => rfl
  | request r =>
    cases other with
    | request q =>
      have hq : q ≠ r := fun heq => hne (by rw [heq])
      simp only [withFacetWaiters, facetWaiters, Heap.cell_modify_of_ne _ _ hq]
    | _ => rfl

section Notify

variable (s) (facet : WaitFacet)

theorem facetSignals_notifyFacet : (s.notifyFacet facet).facetSignals = s.facetSignals :=
  s.facetSignals_withFacetWaiters facet _

theorem facetWaiters_notifyFacet_self : (s.notifyFacet facet).facetWaiters facet =
      (notifyWaiters (s.facetWaiters facet) (s.facetSignals facet)).2 :=
  facetWaiters_withFacetWaiters_self facet _

theorem facetWaiters_notifyFacet_of_ne {other : WaitFacet} (hne : other ≠ facet) :
    (s.notifyFacet facet).facetWaiters other = s.facetWaiters other :=
  facetWaiters_withFacetWaiters_of_ne hne _

theorem observers_notifyFacet : (s.notifyFacet facet).observers = s.observers :=
  s.observers_withFacetWaiters facet _

theorem notified_notifyFacet : (s.notifyFacet facet).notified = s.notified ++
    s.deliveries (notifyWaiters (s.facetWaiters facet) (s.facetSignals facet)).1 := rfl

end Notify

inductive LevelEffect (kinds : Set Kind) (F F' : Frame n) : Prop
  /-- Facets that are not left dirty have at most the level they had. -/
  | lowered (hwaiters : F'.sys.facetWaiters = F.sys.facetWaiters)
      (hdirty : ∀ facet ∈ F.dirty, facet ∈ F'.dirty)
      (hlevel : ∀ facet ∉ F'.dirty, F'.sys.facetWaiters facet = [] ∨
        Bitflags.contains (F.sys.facetSignals facet) (F'.sys.facetSignals facet) = true)
      (hobservers : .wait ∈ kinds ∨ F'.sys.observers = F.sys.observers)
      (hnotified : ∃ more, F'.sys.notified = F.sys.notified ++ more)
  | notified (facet : WaitFacet) (hdirty : F.dirty = facet :: F'.dirty)
      (hsys : F'.sys = F.sys.notifyFacet facet)
  | registered (hkind : Kind.wait ∈ kinds) (facet : WaitFacet) (waiter : SignalWaiter)
      (hlevel : Bitflags.intersects (F.sys.facetSignals facet) waiter.waitFor = false)
      (hflag : waiter.notifying = false) (hdirty : F'.dirty = F.dirty)
      (hsys : F'.sys = F.sys.withFacetWaiters facet (F.sys.facetWaiters facet ++ [waiter]))
  | unregistered (hkind : Kind.wait ∈ kinds) (facet : WaitFacet) (token : WaitToken)
      (hdirty : F'.dirty = F.dirty) (hsys : F'.sys = F.sys.unregisterFacet token facet)

theorem LevelEffect.of_facets (hsignals : F'.sys.facetSignals = F.sys.facetSignals)
    (hwaiters : F'.sys.facetWaiters = F.sys.facetWaiters) (hdirty : F'.dirty = F.dirty)
    (hobservers : .wait ∈ kinds ∨ F'.sys.observers = F.sys.observers)
    (hnotif : ∃ more, F'.sys.notified = F.sys.notified ++ more) :
    LevelEffect kinds F F' := by
  refine .lowered hwaiters (fun facet h => by rwa [hdirty]) (fun facet _ => .inr ?_) hobservers
    hnotif
  rw [hsignals]
  exact contains_self _

theorem LevelEffect.of_cells (hchannels : s'.channels = s.channels)
    (hwindows : s'.windows = s.windows) (hprocesses : s'.processes = s.processes)
    (hreqs : s'.requests = s.requests) (hobservers : s'.observers = s.observers)
    (hnotif : ∃ more, s'.notified = s.notified ++ more) :
    LevelEffect kinds ⟨s, hand, doomed, dirty⟩ ⟨s', hand', doomed', dirty⟩ := by
  obtain ⟨hsignals, hwaiters⟩ := facet_congr hchannels hwindows hprocesses hreqs
  exact .of_facets hsignals hwaiters rfl (.inr hobservers) hnotif

theorem SameObjects.levelEffect (h : SameObjects s s') :
    LevelEffect kinds ⟨s, hand, doomed, dirty⟩ ⟨s', hand, doomed, dirty⟩ :=
  .of_cells h.channels h.windows h.processes h.requests h.observers h.notified

theorem contains_of_eq {signals signals' : Signals} (h : signals' = signals) :
    contains signals signals' = true := by
  rw [h]
  exact contains_self _

theorem notified_refl : ∃ more, s.notified = s.notified ++ more := ⟨[], (append_nil _).symm⟩

/-- A longer queue for one side lowers the level of the other. -/
theorem channelSignals_withQueue_peer (st : ChannelState) (side : Side)
    {q : List KernelMessage} (hlen : (st.queues.get side).length ≤ q.length) :
    Bitflags.contains (channelSignals st side.peer)
      (channelSignals (st.withQueue side q) side.peer) = true := by
  simp only [channelSignals, ChannelState.withQueue, Side.peer_peer, Sided.get_set_peer,
    Sided.get_set_self]
  apply contains_or_or
  · exact contains_self _
  by_cases hopen : st.isOpen.get side = true
  · simp only [hopen]
    by_cases hroom : q.length < channelQueueCapacity
    · have hbef : (st.queues.get side).length < channelQueueCapacity := by omega
      rw [if_pos hroom, if_pos hbef]
      exact contains_self _
    · rw [if_neg hroom]
      exact contains_zero _
  · simp [hopen]

theorem channelSignals_withQueue_self (st : ChannelState) (side : Side)
    {q : List KernelMessage} (hsome : st.queues.get side ≠ []) :
    Bitflags.contains (channelSignals st side)
      (channelSignals (st.withQueue side q) side) = true := by
  simp only [channelSignals, ChannelState.withQueue, Sided.get_set_peer, Sided.get_set_self]
  apply contains_or_or
  · rw [if_pos hsome]
    split
    · exact contains_self _
    · exact contains_zero _
  · exact contains_self _

variable {facet : WaitFacet} {c : ChannelId} {w : WindowId}

theorem facetSignals_modifyChannel (h : ∀ side, facet ≠ .channel c side) :
    (s.modifyChannel c f).facetSignals facet = s.facetSignals facet := by
  cases facet with
  | channel d side =>
    have hd : d ≠ c := fun heq => h side (by rw [heq])
    simp only [facetSignals, cell_modifyChannel, if_neg hd]
  | _ => rfl

theorem facetWaiters_modifyChannel (h : ∀ st, (f st).waiters = st.waiters) :
    (s.modifyChannel c f).facetWaiters = s.facetWaiters := by
  funext facet
  cases facet with
  | channel d side =>
    exact s.cell_modifyChannel_congr (·.waiters.get side) c d fun st => by rw [h]
  | _ => rfl

theorem LevelEffect.of_modifyChannel (side : Side) (hwaiters : ∀ st, (f st).waiters = st.waiters)
    (hlevel : Bitflags.contains (channelSignals (s.channels.cell c) side.peer)
      (channelSignals (f (s.channels.cell c)) side.peer) = true) :
    LevelEffect kinds ⟨s, hand, doomed, []⟩
      ⟨s.modifyChannel c f, hand', doomed', [.channel c side]⟩ := by
  refine .lowered (facetWaiters_modifyChannel hwaiters) (fun _ h => by cases h)
    (fun facet hfacet => .inr ?_) (.inr rfl) notified_refl
  by_cases hother : facet = .channel c side.peer
  · subst hother
    change contains (channelSignals (s.channels.cell c) side.peer)
      (channelSignals ((s.modifyChannel c f).channels.cell c) side.peer) = true
    rw [cell_modifyChannel, if_pos rfl]
    exact hlevel
  · refine contains_of_eq (facetSignals_modifyChannel ?_)
    rintro side' rfl
    rcases Side.eq_or_eq_peer side side' with rfl | rfl
    · exact hfacet (mem_singleton_self _)
    · exact hother rfl

theorem LevelEffect.of_alloc (hblank : Blank s)
    (h : ∀ facet, s'.facetWaiters facet = s.facetWaiters facet ∧
        s'.facetSignals facet = s.facetSignals facet ∨
      ¬facet.Allocated s ∧ s'.facetWaiters facet = [])
    (hobservers : s'.observers = s.observers) (hnotif : s'.notified = s.notified) :
    LevelEffect kinds ⟨s, hand, doomed, dirty⟩ ⟨s', hand', doomed', dirty⟩ := by
  refine .lowered ?_ (fun _ h => h) (fun facet _ => ?_) (.inr hobservers)
    ⟨[], by rw [append_nil]; exact hnotif⟩
  · funext facet
    rcases h facet with hsame | ⟨hcell, hnone⟩
    · exact hsame.1
    · exact hnone.trans (hblank.facetWaiters hcell).symm
  · rcases h facet with hsame | hnew
    · exact .inr (contains_of_eq hsame.2)
    · exact .inl hnew.2

theorem levels_alloc {α : Type} (h : Heap α) (new : α) (i : Nat) (waiters : α → List SignalWaiter)
    (signals : α → Signals) (hnew : waiters new = []) :
    waiters ((h.alloc new).cell i) = waiters (h.cell i) ∧
        signals ((h.alloc new).cell i) = signals (h.cell i) ∨
      ¬i < h.next ∧ waiters ((h.alloc new).cell i) = [] := by
  rcases h.cell_alloc_cases new i with hsame | ⟨hcell, hself⟩
  · rw [hsame]
    exact .inl ⟨rfl, rfl⟩
  · rw [hself]
    exact .inr ⟨hcell, hnew⟩

theorem Transfer.levelEffect (h : Transfer F events F') (hblank : Blank F.sys) :
    LevelEffect kinds F F' := by
  cases h with
  | @createChannel s s1 s2 left right _ _ _ _ hs1 hleft hs2 hright =>
    subst hs1 hs2
    refine .of_alloc hblank (fun facet => ?_) rfl rfl
    cases facet with
    | channel c side =>
      exact levels_alloc s.channels .new c (·.waiters.get side) (channelSignals · side)
        (Sided.get_both [] side)
    | _ => exact .inl ⟨rfl, rfl⟩
  | @send s c side message hcell =>
    refine .of_modifyChannel side (fun _ => rfl) ?_
    apply channelSignals_withQueue_peer
    simp [queue]
  | @receive s c side message queue hcell hq =>
    refine .of_modifyChannel side.peer (fun _ => rfl) ?_
    rw [Side.peer_peer]
    apply channelSignals_withQueue_self
    have hq' : (s.channels.cell c).queues.get side = message :: queue := hq
    rw [hq']
    simp
  | _ => exact .of_cells rfl rfl rfl rfl rfl notified_refl

theorem Release.levelEffect (h : Release F events F') : LevelEffect kinds F F' := by
  cases h with
  | @dropChannel s entry rest c side =>
    refine .lowered (facetWaiters_modifyChannel fun _ => rfl) (fun _ h => by cases h)
      (fun facet hfacet => .inr ?_) (.inr rfl) notified_refl
    refine contains_of_eq (facetSignals_modifyChannel ?_)
    rintro side' rfl
    apply hfacet
    rcases Side.eq_or_eq_peer side side' with rfl | rfl <;> simp
  | _ => exact .of_cells rfl rfl rfl rfl rfl notified_refl

/-! ### Windows and controls -/

theorem WindowStep.waiters {st' : WindowState}
    (h : WindowStep (n := n) w st events st') : st'.waiters = st.waiters := by
  cases h with
  | close role => cases role <;> rfl
  | present h | readRelease h | discardPending h | coalescePending h | complete h | retire h =>
    -- whichever branch returns, it returns the old waiters
    simp only [WindowState.present, WindowState.readRelease, WindowState.discardPending,
      WindowState.coalescePending, WindowState.complete, WindowState.retire] at h
    repeat' split at h
    all_goals cases h <;> rfl

theorem facetWaiters_setWindow (h : st.waiters = (s.windows.cell w).waiters) :
    (s.setWindow w st).facetWaiters = s.facetWaiters := by
  funext facet
  cases facet with
  | window v role =>
    simp only [facetWaiters, cell_setWindow]
    split
    · rename_i hv
      rw [h, hv]
    · rfl
  | _ => rfl

theorem facetSignals_setWindow (h : ∀ role, facet ≠ .window w role) :
    (s.setWindow w st).facetSignals facet = s.facetSignals facet := by
  cases facet with
  | window v role =>
    have hv : v ≠ w := fun heq => h role (by rw [heq])
    simp only [facetSignals, cell_setWindow, if_neg hv]
  | _ => rfl

section Controls

variable {p : ProcessControlId} {f : ProcessControlState → ProcessControlState}
  {r : RequestControlId} {g : RequestControlState → RequestControlState} {facet : WaitFacet}

theorem facetWaiters_modifyProcess (h : ∀ st, (f st).waiters = st.waiters) :
    { s with processes := s.processes.modify p f }.facetWaiters = s.facetWaiters := by
  funext facet
  cases facet with
  | process q => exact s.processes.cell_modify_congr (·.waiters) h p q
  | _ => rfl

theorem facetSignals_modifyProcess (h : facet ≠ .process p ∨ ∀ st, (f st).info = st.info) :
    { s with processes := s.processes.modify p f }.facetSignals facet = s.facetSignals facet := by
  cases facet with
  | process q =>
    rcases h with hne | hinfo
    · have hq : q ≠ p := fun heq => hne (by rw [heq])
      simp only [facetSignals, Heap.cell_modify_of_ne _ _ hq]
    · exact s.processes.cell_modify_congr processSignals
        (fun st => by simp only [processSignals, hinfo]) p q
  | _ => rfl

theorem facetWaiters_modifyRequest (h : ∀ st, (g st).waiters = st.waiters) :
    { s with requests := s.requests.modify r g }.facetWaiters = s.facetWaiters := by
  funext facet
  cases facet with
  | request q => exact s.requests.cell_modify_congr (·.waiters) h r q
  | _ => rfl

theorem facetSignals_modifyRequest (h : facet ≠ .request r ∨ ∀ st, (g st).info = st.info) :
    { s with requests := s.requests.modify r g }.facetSignals facet = s.facetSignals facet := by
  cases facet with
  | request q =>
    rcases h with hne | hinfo
    · have hq : q ≠ r := fun heq => hne (by rw [heq])
      simp only [facetSignals, Heap.cell_modify_of_ne _ _ hq]
    · exact s.requests.cell_modify_congr requestSignals
        (fun st => by simp only [requestSignals, hinfo]) r q
  | _ => rfl

end Controls

/-- A move that raises levels of the facets it leaves dirty only. -/
theorem LevelEffect.of_dirty (hwaiters : s'.facetWaiters = s.facetWaiters)
    (hsignals : ∀ facet ∉ dirty, s'.facetSignals facet = s.facetSignals facet)
    (hobservers : s'.observers = s.observers) (hnotif : ∃ more, s'.notified = s.notified ++ more) :
    LevelEffect kinds ⟨s, hand, doomed, []⟩ ⟨s', hand', doomed', dirty⟩ := by
  refine .lowered hwaiters (fun _ h => by cases h) (fun facet hfacet => .inr ?_)
    (.inr hobservers) hnotif
  exact contains_of_eq (hsignals facet hfacet)

theorem Service.levelEffect (h : Service F events F') (hblank : Blank F.sys) :
    LevelEffect kinds F F' := by
  cases h with
  | silent h => exact h.levelEffect
  | @cache s hand dirty c side messages =>
    refine .of_facets ?_ (facetWaiters_modifyChannel fun _ => rfl) rfl (.inr rfl) notified_refl
    funext facet
    cases facet with
    | channel d side' =>
      exact s.cell_modifyChannel_congr (channelSignals · side') c d fun _ => rfl
    | _ => rfl
  | @newWindow s sharedMemory bufferLen generation bufferCount =>
    refine .of_alloc hblank (fun facet => ?_) rfl rfl
    cases facet with
    | window w role =>
      exact levels_alloc s.windows _ w (·.waiters.get _) (windowSignals · role)
        (Sided.get_both [] _)
    | _ => exact .inl ⟨rfl, rfl⟩
  | @newProcess s =>
    refine .of_alloc hblank (fun facet => ?_) rfl rfl
    cases facet with
    | process p => exact levels_alloc s.processes .new p (·.waiters) processSignals rfl
    | _ => exact .inl ⟨rfl, rfl⟩
  | @newRequest s requestId info =>
    refine .of_alloc hblank (fun facet => ?_) rfl rfl
    cases facet with
    | request r => exact levels_alloc s.requests _ r (·.waiters) requestSignals rfl
    | _ => exact .inl ⟨rfl, rfl⟩
  | @window s doomed st events w hcell hstep =>
    refine .of_dirty (facetWaiters_setWindow hstep.waiters) (fun facet hfacet => ?_) rfl
      notified_refl
    apply facetSignals_setWindow
    rintro role rfl
    apply hfacet
    cases role <;> simp
  | @readPending s w hcell =>
    refine .of_facets ?_ (facetWaiters_setWindow rfl) rfl (.inr rfl) notified_refl
    funext facet
    cases facet with
    | window v role =>
      simp only [frame, facetSignals, cell_setWindow]
      split
      · rename_i hv
        rw [hv]
        cases role <;> rfl
      · rfl
    | _ => rfl
  | @publishProcess s p info =>
    refine .of_dirty (facetWaiters_modifyProcess fun _ => rfl) (fun facet hfacet => ?_) rfl
      notified_refl
    exact facetSignals_modifyProcess (.inl fun heq => hfacet (heq ▸ mem_singleton_self _))
  | @process s f p more hcell hinfo hwaiters =>
    refine .of_facets ?_ (facetWaiters_modifyProcess hwaiters) rfl (.inr rfl) ⟨more, rfl⟩
    funext facet
    exact facetSignals_modifyProcess (.inr hinfo)
  | @publishRequest s r info =>
    refine .of_dirty (facetWaiters_modifyRequest fun _ => rfl) (fun facet hfacet => ?_) rfl
      notified_refl
    exact facetSignals_modifyRequest (.inl fun heq => hfacet (heq ▸ mem_singleton_self _))
  | @request s r =>
    refine .of_facets ?_ (facetWaiters_modifyRequest fun _ => rfl) rfl (.inr rfl) notified_refl
    funext facet
    exact facetSignals_modifyRequest (.inr fun _ => rfl)
  | @notify s hand doomed facet dirty => exact .notified facet rfl rfl

theorem Wait.levelEffect (h : Wait F events F') (hkind : Kind.wait ∈ kinds) :
    LevelEffect kinds F F' := by
  cases h with
  | silent h => exact h.levelEffect
  | observers => exact .of_facets rfl rfl rfl (.inl hkind) notified_refl
  | register facet w hcell hlevel hflag =>
    exact .registered hkind facet w hlevel hflag rfl rfl
  | unregister facet token => exact .unregistered hkind facet token rfl rfl

theorem Moves.levelEffect (h : Moves kinds F events F') (hblank : Blank F.sys) :
    LevelEffect kinds F F' := by
  cases h with
  | transfer _ h | service _ h => exact h.levelEffect hblank
  | release _ h => exact h.levelEffect
  | wait hkind h => exact h.levelEffect hkind

/-- No waiter is marked, and those of facets that are not dirty are not met. -/
structure Quiet (F : Frame n) : Prop where
  unmarked : ∀ facet, ∀ waiter ∈ F.sys.facetWaiters facet, waiter.notifying = false
  unmet : ∀ facet ∉ F.dirty, ∀ waiter ∈ F.sys.facetWaiters facet,
    Bitflags.intersects (F.sys.facetSignals facet) waiter.waitFor = false

theorem quiet_init : Quiet (System.init n).frame := by
  have hnone facet : (init n).frame.sys.facetWaiters facet = [] := by
    cases facet with
    | channel c side => exact Sided.get_both [] side
    | window w role => exact Sided.get_both [] _
    | process => rfl
    | request => rfl
  constructor
  · intro facet waiter hwaiter
    rw [hnone] at hwaiter
    cases hwaiter
  · intro facet _ waiter hwaiter
    rw [hnone] at hwaiter
    cases hwaiter

/-- Nothing is dirty between calls. -/
theorem Quiet.unmet_frame (h : Quiet s.frame) (facet : WaitFacet) {w : SignalWaiter}
    (hwaiter : w ∈ s.facetWaiters facet) :
    Bitflags.intersects (s.facetSignals facet) w.waitFor = false :=
  h.unmet facet not_mem_nil w hwaiter

theorem Quiet.effect (h : Quiet F) (heffect : LevelEffect kinds F F') : Quiet F' := by
  cases heffect with
  | lowered hwaiters hdirty hlevel hobservers hnotif =>
    refine ⟨fun facet waiter hwaiter => ?_, fun facet hfacet waiter hwaiter => ?_⟩
    · rw [hwaiters] at hwaiter
      exact h.unmarked facet waiter hwaiter
    rcases hlevel facet hfacet with hnone | hlower
    · rw [hnone] at hwaiter
      cases hwaiter
    · rw [hwaiters] at hwaiter
      have hbef := h.unmet facet (fun hmem => hfacet (hdirty facet hmem)) waiter hwaiter
      by_contra hmet
      rw [Bool.not_eq_false] at hmet
      rw [intersects_mono hlower hmet] at hbef
      cases hbef
  | notified facet hdirty hsys =>
    refine ⟨fun other waiter hwaiter => ?_, fun other hother waiter hwaiter => ?_⟩
    all_goals
      rw [hsys] at hwaiter
      by_cases heq : other = facet
    · subst heq
      rw [facetWaiters_notifyFacet_self] at hwaiter
      exact (mem_notifyWaiters_retained.mp hwaiter).2.1
    · rw [facetWaiters_notifyFacet_of_ne _ _ heq] at hwaiter
      exact h.unmarked other waiter hwaiter
    · subst heq
      rw [facetWaiters_notifyFacet_self] at hwaiter
      rw [hsys, facetSignals_notifyFacet]
      exact (mem_notifyWaiters_retained.mp hwaiter).2.2
    · rw [facetWaiters_notifyFacet_of_ne _ _ heq] at hwaiter
      rw [hsys, facetSignals_notifyFacet]
      apply h.unmet other _ waiter hwaiter
      rw [hdirty]
      exact not_mem_cons_of_ne_of_not_mem heq hother
  | registered hkind facet waiter hlevel hflag hdirty hsys =>
    have hold other waiter'
        (hwaiter : waiter' ∈ F'.sys.facetWaiters other) :
        waiter' ∈ F.sys.facetWaiters other ∨ other = facet ∧ waiter' = waiter := by
      rw [hsys] at hwaiter
      by_cases heq : other = facet
      · subst heq
        rw [facetWaiters_withFacetWaiters_self, mem_append, mem_singleton] at hwaiter
        exact hwaiter.imp_right fun hnew => ⟨rfl, hnew⟩
      · rw [facetWaiters_withFacetWaiters_of_ne heq] at hwaiter
        exact .inl hwaiter
    refine ⟨fun other waiter' hwaiter => ?_, fun other hother waiter' hwaiter => ?_⟩
    · rcases hold other waiter' hwaiter with hmem | ⟨-, rfl⟩
      · exact h.unmarked other waiter' hmem
      · exact hflag
    · rw [hsys, facetSignals_withFacetWaiters]
      rw [hdirty] at hother
      rcases hold other waiter' hwaiter with hmem | ⟨rfl, rfl⟩
      · exact h.unmet other hother waiter' hmem
      · exact hlevel
  | unregistered hkind facet token hdirty hsys =>
    have hold other waiter
        (hwaiter : waiter ∈ F'.sys.facetWaiters other) : waiter ∈ F.sys.facetWaiters other := by
      rw [hsys, unregisterFacet] at hwaiter
      by_cases heq : other = facet
      · subst heq
        rw [facetWaiters_withFacetWaiters_self] at hwaiter
        exact mem_of_mem_filter hwaiter
      · rwa [facetWaiters_withFacetWaiters_of_ne heq] at hwaiter
    refine ⟨fun other waiter hwaiter => h.unmarked other waiter (hold other waiter hwaiter),
      fun other hother waiter hwaiter => ?_⟩
    rw [hsys, unregisterFacet, facetSignals_withFacetWaiters]
    rw [hdirty] at hother
    exact h.unmet other hother waiter (hold other waiter hwaiter)

theorem Quiet.star (h : Quiet F) (hwf : Wf F) (hstar : Star (Moves kinds) F events F') :
    Quiet F' := by
  have hall := hstar.invariant (I := fun _ F => Quiet F ∧ Wf F) ⟨h, hwf⟩ ?_
  · exact hall.1
  · rintro past F₁ events F₂ ⟨hquiet, hwf1⟩ hmove
    exact ⟨hquiet.effect (hmove.levelEffect hwf1.blank), hwf1.move hmove⟩

theorem Run.quiet {trace : List (Record n)} (h : Run trace s) : Quiet s.frame :=
  quiet_init.star wf_init h.simulated

/-- Every waiter of `s` is still retained, or its observer has been told. -/
structure Told (s : System n) (F : Frame n) : Prop where
  observers : F.sys.observers = s.observers
  notified : ∃ more, F.sys.notified = s.notified ++ more ∧
    ∀ facet, ∀ waiter ∈ s.facetWaiters facet, waiter ∈ F.sys.facetWaiters facet ∨
      (s.observers.cell waiter.observer = true → (waiter.observer, waiter.token) ∈ more)

theorem told_refl (s : System n) : Told s s.frame :=
  ⟨rfl, [], (append_nil _).symm, fun _ _ hwaiter => .inl hwaiter⟩

theorem mem_deliveries_of_not_retained {w : SignalWaiter}
    (hwaiter : w ∈ s.facetWaiters facet) (hflag : w.notifying = false)
    (hgone : w ∉ (s.notifyFacet facet).facetWaiters facet)
    (halive : s.observers.cell w.observer = true) :
    (w.observer, w.token) ∈
      s.deliveries (notifyWaiters (s.facetWaiters facet) (s.facetSignals facet)).1 := by
  rw [facetWaiters_notifyFacet_self, mem_notifyWaiters_retained] at hgone
  have hmet : intersects (s.facetSignals facet) w.waitFor = true := by
    by_contra hunmet
    exact hgone ⟨hwaiter, hflag, Bool.not_eq_true _ ▸ hunmet⟩
  have htaken := mem_notifyWaiters_taken hwaiter hmet
  exact mem_map.mpr ⟨_, mem_filter.mpr ⟨htaken, halive⟩, rfl⟩

theorem Told.effect (h : Told s F) (hquiet : Quiet F) (hkinds : Kind.wait ∉ kinds)
    (heffect : LevelEffect kinds F F') : Told s F' := by
  obtain ⟨hobservers, past, hpast, htold⟩ := h
  cases heffect with
  | lowered hwaiters hdirty hlevel hobservers' hnotif =>
    obtain ⟨more, hmore⟩ := hnotif
    refine ⟨(hobservers'.resolve_left hkinds).trans hobservers, past ++ more, ?_, ?_⟩
    · rw [hmore, hpast, append_assoc]
    · intro facet w hwaiter
      rw [hwaiters]
      exact (htold facet w hwaiter).imp_right fun htold halive =>
        mem_append_left _ (htold halive)
  | notified facet hdirty hsys =>
    refine ⟨?_, past ++ F.sys.deliveries (notifyWaiters (F.sys.facetWaiters facet)
      (F.sys.facetSignals facet)).1, ?_, ?_⟩
    · rw [hsys, observers_notifyFacet, hobservers]
    · rw [hsys, notified_notifyFacet, hpast, append_assoc]
    · intro other w hwaiter
      rcases htold other w hwaiter with hmem | htold
      · by_cases hstays : w ∈ F'.sys.facetWaiters other
        · exact .inl hstays
        · refine .inr fun halive => mem_append_right _ ?_
          rw [hsys] at hstays
          by_cases heq : other = facet
          · subst heq
            rw [← hobservers] at halive
            exact mem_deliveries_of_not_retained hmem (hquiet.unmarked other w hmem) hstays halive
          · rw [facetWaiters_notifyFacet_of_ne _ _ heq] at hstays
            exact absurd hmem hstays
      · exact .inr fun halive => mem_append_left _ (htold halive)
  | registered hkind | unregistered hkind => exact absurd hkind hkinds

theorem told_of_star (hquiet : Quiet s.frame) (hwf : Wf s.frame) (hkinds : Kind.wait ∉ kinds)
    (h : Star (Moves kinds) s.frame events F) : Told s F := by
  have hall := h.invariant (I := fun _ F => Told s F ∧ Quiet F ∧ Wf F) ⟨told_refl s, hquiet, hwf⟩ ?_
  · exact hall.1
  · rintro past F₁ events F₂ ⟨htold, hquiet1, hwf1⟩ hmove
    have heffect := hmove.levelEffect hwf1.blank
    exact ⟨htold.effect hquiet1 hkinds heffect, hquiet1.effect heffect, hwf1.move hmove⟩

/-! ## Waiting changes no level -/

theorem Wait.facetSignals (h : Wait F events F') : F'.sys.facetSignals = F.sys.facetSignals ∧
      ∃ more, F'.sys.notified = F.sys.notified ++ more := by
  cases h with
  | silent h =>
    exact ⟨(facet_congr h.channels h.windows h.processes h.requests).1, h.notified⟩
  | observers => exact ⟨rfl, notified_refl⟩
  | @register s facet w | @unregister s facet token =>
    exact ⟨s.facetSignals_withFacetWaiters facet _,
      [], by rw [append_nil]; exact s.notified_withFacetWaiters facet _⟩

theorem facetSignals_of_waiting (h : Star (Moves waiting) s.frame events F) :
    F.sys.facetSignals = s.facetSignals ∧ ∃ more, F.sys.notified = s.notified ++ more := by
  refine h.invariant (I := fun _ F => F.sys.facetSignals = s.facetSignals ∧
    ∃ more, F.sys.notified = s.notified ++ more) ⟨rfl, notified_refl⟩ ?_
  rintro past F₁ events F₂ ⟨hsignals, more, hmore⟩ hmove
  cases hmove with
  | wait _ hmove =>
    obtain ⟨hsignals', more', hmore'⟩ := hmove.facetSignals
    exact ⟨hsignals'.trans hsignals, more ++ more', by rw [hmore', hmore, append_assoc]⟩
  | _ hkind => cases hkind

theorem Op.eq_wait {op : Op n} (h : Kind.wait ∈ op.kinds) :
    ∃ call, op = .wait call ∧ op.kinds = waiting := by
  unfold Op.kinds at h ⊢
  split at h
  · simp [dropping] at h
  · exact ⟨_, rfl, rfl⟩
  · simp [keeping] at h

/-! ## What waiting retains -/

/-- The waiters of other tokens stay. -/
def KeepsOthers (token : WaitToken) (s s' : System n) : Prop :=
  ∀ facet, ∀ waiter ∈ s.facetWaiters facet, waiter.token ≠ token → waiter ∈ s'.facetWaiters facet

theorem KeepsOthers.unregisterAll {token : WaitToken} (h : KeepsOthers token s s')
    (facets : List WaitFacet) : KeepsOthers token s (s'.unregisterAll token facets) := by
  induction facets generalizing s' with
  | nil => exact h
  | cons facet facets ih =>
    refine ih fun other waiter hwaiter hne => ?_
    have hkept := h other waiter hwaiter hne
    unfold unregisterFacet
    by_cases heq : other = facet
    · subst heq
      rw [facetWaiters_withFacetWaiters_self]
      exact mem_filter.mpr ⟨hkept, decide_eq_true hne⟩
    · rwa [facetWaiters_withFacetWaiters_of_ne heq]

/-- Waiters are added and nothing else changes that a registration reads. -/
structure Registers (s s' : System n) : Prop where
  levels : SameLevels s s'
  retained : ∀ facet, s.facetWaiters facet ⊆ s'.facetWaiters facet

theorem Registers.refl (s : System n) : Registers s s := ⟨.refl s, fun _ _ h => h⟩

theorem Registers.trans {s'' : System n} (h : Registers s s') (h' : Registers s' s'') :
    Registers s s'' :=
  ⟨h.levels.trans h'.levels, fun facet _ hwaiter =>
    h'.retained facet (h.retained facet hwaiter)⟩

theorem Registers.withMemory (s : System n) (memory : Budget) :
    Registers s { s with memory := memory } :=
  ⟨.withMemory s memory, fun facet _ h => by cases facet <;> exact h⟩

/-- The waiter of an item is retained. -/
def ItemRetained (s s' : System n) (t : Fin n) (token : WaitToken) (observer : ObserverId)
    (item : WaitItem) : Prop :=
  ∃ e facet, (s.tables t).entry item.handle = .ok e ∧ waitFacet e.object = .ok facet ∧
    ⟨token, item.waitFor, observer, false⟩ ∈ s'.facetWaiters facet

section Registration

variable (t : Fin n) (token : WaitToken) (observer : ObserverId)

theorem wp_registerFacet_retains (s : System n) (facet : WaitFacet) (waitFor : Signals) :
    wp (registerFacet facet token waitFor observer)
      (fun retained s' => Registers s s' ∧
        (retained = false → Bitflags.intersects (s.facetSignals facet) waitFor = true) ∧
        (retained = true → ⟨token, waitFor, observer, false⟩ ∈ s'.facetWaiters facet))
      (fun _ => Registers s) s := by
  refine wp_get (wp_ite (fun hmet => wp_pure ⟨.refl s, fun _ => hmet, nofun⟩) fun _ => ?_)
  refine wp_bind (wp_zoom (wp_registerSignalWaiter (fun memory => ?_) fun _ memory => ?_))
  · refine wp_modify_bind (wp_pure ⟨(Registers.withMemory s memory).trans
      ⟨.withFacetWaiters _ _ _, fun other waiter hwaiter => ?_⟩, nofun, fun _ => ?_⟩)
    · by_cases heq : other = facet
      · subst heq
        rw [facetWaiters_withFacetWaiters_self]
        exact mem_append_left _ ((Registers.withMemory s memory).retained other hwaiter)
      · rwa [facetWaiters_withFacetWaiters_of_ne heq]
    · rw [facetWaiters_withFacetWaiters_self]
      exact mem_append_right _ (mem_singleton_self _)
  · exact .withMemory s memory

theorem wp_registerItem_retains (s : System n) (item : WaitItem) :
    wp (registerItem t token observer item)
      (fun _ s' => Registers s s' ∧
        (ItemReady s t item ∨ ItemRetained s s' t token observer item))
      (fun _ => Registers s) s := by
  unfold registerItem entry
  refine wp_bind (wp_get ?_)
  cases hentry : (s.tables t).entry item.handle with
  | error e => exact wp_throw (.refl s)
  | ok source =>
    refine wp_pure (wp_ite (fun _ => wp_bind (wp_throw (.refl s))) fun _ => wp_bind ?_)
    cases hfacet : waitFacet source.object with
    | error e => exact wp_throw (.refl s)
    | ok facet =>
      refine wp_pure (wp_bind (wp_mono (wp_registerFacet_retains token observer s facet _) ?_
        fun _ _ h => h))
      rintro retained s' ⟨hregisters, hready, hretained⟩
      refine wp_pure ⟨hregisters, ?_⟩
      cases retained with
      | false => exact .inl ⟨source, facet, hentry, hfacet, hready rfl⟩
      | true => exact .inr ⟨source, facet, hentry, hfacet, hretained rfl⟩

theorem wp_registerItems_retains (s : System n) (items : List WaitItem) (facets : List WaitFacet)
    (alreadyReady : Bool) :
    wp (registerItems t token observer items facets alreadyReady)
      (fun _ s' => Registers s s' ∧
        ∀ item ∈ items, ItemReady s t item ∨ ItemRetained s s' t token observer item)
      (fun _ => KeepsOthers token s) s := by
  induction items generalizing s facets alreadyReady with
  | nil => exact wp_pure ⟨.refl s, forall_mem_nil _⟩
  | cons item rest ih =>
    refine wp_bind (wp_attempt (wp_mono (wp_registerItem_retains t token observer s item) ?_ ?_))
    · rintro retained s1 ⟨hfirst, hitem⟩
      have hrest (facets : List WaitFacet) (alreadyReady : Bool) :
          wp (registerItems t token observer rest facets alreadyReady)
            (fun _ s' => Registers s s' ∧ ∀ other ∈ item :: rest,
              ItemReady s t other ∨ ItemRetained s s' t token observer other)
            (fun _ => KeepsOthers token s) s1 := by
        refine wp_mono (ih s1 facets alreadyReady) ?_ fun _ s' hkept facet waiter hwaiter =>
          hkept facet waiter (hfirst.retained facet hwaiter)
        rintro _ s' ⟨hregisters, hitems⟩
        refine ⟨hfirst.trans hregisters, forall_mem_cons.mpr ⟨?_, fun other hother => ?_⟩⟩
        · refine hitem.imp_right fun ⟨e, facet, hentry, hfacet, hwaiter⟩ => ?_
          exact ⟨e, facet, hentry, hfacet, hregisters.retained facet hwaiter⟩
        · refine (hitems other hother).imp (hfirst.levels.ready other).mp ?_
          rintro ⟨e, facet, hentry, hfacet, hwaiter⟩
          exact ⟨e, facet, hfirst.levels.tables ▸ hentry, hfacet, hwaiter⟩
      cases retained with
      | none => exact hrest _ _
      | some facet => exact hrest _ _
    -- an item that fails undoes the items before it
    · intro fault s1 hfirst
      refine wp_modify_bind (wp_throw (KeepsOthers.unregisterAll ?_ facets))
      exact fun facet waiter hwaiter _ => hfirst.retained facet hwaiter

theorem wp_registerWaitMany_retains (s : System n) (items : List WaitItem) :
    wp (registerWaitMany t items token observer)
      (fun _ s' => (∀ facet, s.facetWaiters facet ⊆ s'.facetWaiters facet) ∧
        ∀ item ∈ items, ItemReady s t item ∨ ItemRetained s s' t token observer item)
      (fun _ => KeepsOthers token s) s := by
  refine wp_bind (wp_zoom (wp_allocCapacity (fun memory => ?_) fun memory => ?_))
  · have hmemory := Registers.withMemory s memory
    refine wp_bind (wp_mono (wp_registerItems_retains t token observer _ items [] false) ?_ ?_)
    · rintro ⟨facets, alreadyReady⟩ s1 ⟨hregisters, hitems⟩
      -- what follows changes no list of waiters
      have hdone (s2 : System n) (hsame : s2.facetWaiters = s1.facetWaiters) :
          (∀ facet, s.facetWaiters facet ⊆ s2.facetWaiters facet) ∧ ∀ item ∈ items,
            ItemReady s t item ∨ ItemRetained s s2 t token observer item := by
        unfold ItemRetained
        rw [hsame]
        refine ⟨(hmemory.trans hregisters).retained, fun item hitem => ?_⟩
        exact (hitems item hitem).imp_left (hmemory.levels.ready item).mp
      refine wp_get (wp_ite (fun _ => wp_ite (fun _ => ?_) fun _ => ?_) fun _ => ?_)
      · exact wp_bind (wp_throw fun facet waiter hwaiter _ => (hdone s1 rfl).1 facet hwaiter)
      · refine wp_set_bind (wp_get (wp_set_bind (wp_pure (hdone _ ?_))))
        exact (facet_congr rfl rfl rfl rfl).2
      · refine wp_get (wp_set_bind (wp_pure (hdone _ ?_)))
        exact (facet_congr rfl rfl rfl rfl).2
    · exact fun _ s1 hkept facet waiter hwaiter =>
        hkept facet waiter (hmemory.retained facet hwaiter)
  · exact fun facet waiter hwaiter _ => (Registers.withMemory s memory).retained facet hwaiter

end Registration

/-- The token under which a call registers waiters or drops them. -/
def Op.waitToken (s : System n) : Op n → Option WaitToken
  | .wait (.registerWaitMany _ _ token _) => some token
  | .wait (.dropRegistration registration) =>
    (s.registrations.cell registration).map (·.token)
  | _ => none

theorem WaitOp.keeps (op : WaitOp n) (s : System n) :
    Ends op.run (fun s' => ∀ facet, ∀ waiter ∈ s.facetWaiters facet,
      (Op.wait op).waitToken s = some waiter.token ∨ waiter ∈ s'.facetWaiters facet) s := by
  have hothers {token : WaitToken} (s' : System n) (hkept : KeepsOthers token s s')
      (facet : WaitFacet) (waiter : SignalWaiter) (hwaiter : waiter ∈ s.facetWaiters facet) :
      some token = some waiter.token ∨ waiter ∈ s'.facetWaiters facet := by
    by_cases heq : waiter.token = token
    · exact .inl (congrArg some heq.symm)
    · exact .inr (hkept facet waiter hwaiter heq)
  cases op with
  | observerNew =>
    refine wp_get (wp_set_bind (wp_pure fun facet waiter hwaiter => .inr ?_))
    rwa [(facet_congr rfl rfl rfl rfl).2]
  | observerDrop observer =>
    refine wp_modify_bind (wp_pure fun facet waiter hwaiter => .inr ?_)
    rwa [(facet_congr rfl rfl rfl rfl).2]
  | registerWaitMany t items token observer =>
    refine wp_map (wp_mono (wp_registerWaitMany_retains t token observer s items) ?_ ?_)
    · exact fun _ s' hretained facet waiter hwaiter => .inr (hretained.1 facet hwaiter)
    · exact fun _ => hothers
  | dropRegistration registration =>
    refine wp_bind (wp_get ?_)
    cases hcell : s.registrations.cell registration with
    | none => exact wp_pure (wp_pure fun _ _ hwaiter => .inr hwaiter)
    | some registered =>
      refine wp_modify (wp_pure fun facet waiter hwaiter => ?_)
      simp only [Op.waitToken, hcell, Option.map_some]
      refine hothers _ ?_ facet waiter hwaiter
      have hkept := (show KeepsOthers registered.token s s from fun _ _ h _ => h).unregisterAll
        registered.facets
      exact hkept

theorem Step.keeps {r : Record n} (h : Step s [r] s') {op : WaitOp n} (hop : r.op = .wait op)
    {facet : WaitFacet} {waiter : SignalWaiter} (hwaiter : waiter ∈ s.facetWaiters facet) :
    r.op.waitToken s = some waiter.token ∨ waiter ∈ s'.facetWaiters facet := by
  cases h with
  | @call call _ =>
  obtain ⟨op, memory⟩ := call
  cases hop
  have hbefore := (Registers.withMemory s memory).retained facet hwaiter
  have hkeeps := WaitOp.keeps op { s with memory := memory }
  unfold exec
  cases hrun : op.run { s with memory := memory } with
  | ok value s1 =>
    simp only [Op.run, hrun]
    exact wp_ok hkeeps hrun facet waiter hbefore
  | error fault s1 =>
    simp only [Op.run, hrun]
    exact wp_error hkeeps hrun facet waiter hbefore

/-- A call keeps every waiter, unless it drops its token or tells its observer, and it removes
every waiter that it leaves met. -/
theorem Step.told {r : Record n} (h : Step s [r] s') (hwf : Wf s.frame)
    (hquiet : Quiet s.frame) : ∃ more, s'.notified = s.notified ++ more ∧
      ∀ facet, ∀ waiter ∈ s.facetWaiters facet,
        (waiter ∈ s'.facetWaiters facet ∨ r.op.waitToken s = some waiter.token ∨
          (∀ op, r.op ≠ .wait op) ∧
          (s.observers.cell waiter.observer = true → (waiter.observer, waiter.token) ∈ more)) ∧
        (Bitflags.intersects (s'.facetSignals facet) waiter.waitFor = true →
          waiter ∉ s'.facetWaiters facet ∧
          (s.observers.cell waiter.observer = true → (waiter.observer, waiter.token) ∈ more)) := by
  have hstar := (h.simulated hwf).1
  by_cases hkind : Kind.wait ∈ r.op.kinds
  -- a call that waits changes no level, and removes waiters of its own token only
  · obtain ⟨op, hop, hkinds⟩ := Op.eq_wait hkind
    rw [hkinds] at hstar
    obtain ⟨hsignals, more, hmore⟩ := facetSignals_of_waiting hstar
    refine ⟨more, hmore, fun facet waiter hwaiter => ⟨?_, fun hmet => ?_⟩⟩
    · exact (h.keeps hop hwaiter).elim (.inr ∘ .inl) .inl
    · have hunmet := hquiet.unmet_frame facet hwaiter
      change s'.facetSignals = _ at hsignals
      rw [← hsignals, hmet] at hunmet
      cases hunmet
  -- any other call removes a waiter only by telling its observer
  · obtain ⟨-, more, hmore, htold⟩ := told_of_star hquiet hwf hkind hstar
    have hquiet' := hquiet.star hwf hstar
    refine ⟨more, hmore, fun facet waiter hwaiter => ⟨?_, fun hmet => ?_⟩⟩
    · refine (htold facet waiter hwaiter).imp_right fun htold => .inr ⟨fun op heq => ?_, htold⟩
      exact hkind (heq ▸ wait_mem_waiting)
    have hgone : waiter ∉ s'.facetWaiters facet := by
      intro hmem
      have hunmet := hquiet'.unmet_frame facet hmem
      rw [hmet] at hunmet
      cases hunmet
    exact ⟨hgone, (htold facet waiter hwaiter).resolve_left hgone⟩

/-- A successful registration retains a waiter for each item that is not met, and tells the
observer if one is. -/
theorem Step.registerWaitMany {r : Record n} (h : Step s [r] s') (hwf : Wf s.frame)
    {t : Fin n} {items : List WaitItem} {token : WaitToken} {observer : ObserverId}
    {value : Value} (hop : r.op = .wait (.registerWaitMany t items token observer))
    (hok : r.outcome = .ok value) :
    ((∃ item ∈ items, ItemReady s t item) → s'.notified = s.notified ++ [(observer, token)]) ∧
      (∀ item ∈ items, ItemReady s t item ∨ ItemRetained s s' t token observer item) ∧
      ∀ facet, s.facetWaiters facet ⊆ s'.facetWaiters facet := by
  cases h with
  | @call call hvalid =>
  obtain ⟨op, memory⟩ := call
  change op = _ at hop
  subst hop
  have hlevels := SameLevels.withMemory s memory
  have hrch := (Reaches.refl s).silent (.inr wait_mem_waiting) (.withMemory s memory)
  have hwp := @wp_registerWaitMany n _ t token observer (hwf.star hrch) items hvalid
  simp only [hlevels.ready] at hwp
  have hretains := wp_registerWaitMany_retains t token observer { s with memory := memory } items
  change (s.exec _).1 = _ at hok
  unfold exec at hok ⊢
  simp only [Op.run, WaitOp.run, Functor.map, EStateM.map] at hok ⊢
  cases hrun : registerWaitMany t items token observer { s with memory := memory } with
  | ok registration s1 =>
    obtain ⟨hkept, hitems⟩ := wp_ok hretains hrun
    refine ⟨(wp_ok hwp hrun).2.1, fun item hitem => ?_, fun facet waiter hwaiter => ?_⟩
    · exact (hitems item hitem).imp_left (hlevels.ready item).mp
    · exact hkept facet ((Registers.withMemory s memory).retained facet hwaiter)
  | error fault s1 =>
    rw [hrun] at hok
    cases hok

/-- After every call no retained waiter is met.  A waiter stays until its observer, if that is
alive, is told or a call drops its token, and a call that leaves a waiter met has removed it and
told its observer.  A registration retains a waiter for each item that is not met, and tells its
observer if one is. -/
theorem run_no_lost_wakeup {trace : List (Record n)} {s : System n} (h : Run trace s) :
    (∀ facet, ∀ waiter ∈ s.facetWaiters facet,
      Bitflags.intersects (s.facetSignals facet) waiter.waitFor = false) ∧
    (∀ r ∈ trace, ∃ more, r.after.notified = r.before.notified ++ more ∧
      ∀ facet, ∀ waiter ∈ r.before.facetWaiters facet,
        (waiter ∈ r.after.facetWaiters facet ∨ r.op.waitToken r.before = some waiter.token ∨
          (∀ op, r.op ≠ .wait op) ∧ (r.before.observers.cell waiter.observer = true →
            (waiter.observer, waiter.token) ∈ more)) ∧
        (Bitflags.intersects (r.after.facetSignals facet) waiter.waitFor = true →
          waiter ∉ r.after.facetWaiters facet ∧ (r.before.observers.cell waiter.observer = true →
            (waiter.observer, waiter.token) ∈ more))) ∧
    ∀ r ∈ trace, ∀ t items token observer value,
      r.op = .wait (.registerWaitMany t items token observer) → r.outcome = .ok value →
      ((∃ item ∈ items, ItemReady r.before t item) →
        r.after.notified = r.before.notified ++ [(observer, token)]) ∧
      (∀ item ∈ items, ItemReady r.before t item ∨
        ItemRetained r.before r.after t token observer item) ∧
      ∀ facet, r.before.facetWaiters facet ⊆ r.after.facetWaiters facet := by
  refine ⟨fun facet waiter => h.quiet.unmet_frame facet, fun r hr => ?_, ?_⟩
  · obtain ⟨past, hpast, hstep⟩ := h.record hr
    exact hstep.told hpast.wf hpast.quiet
  · intro r hr t items token observer value hop hok
    obtain ⟨past, hpast, hstep⟩ := h.record hr
    exact hstep.registerWaitMany hpast.wf hop hok

/-- Two observers wait at one end of a channel, one for a message and one for the end of the peer.
The peer writes a message. -/
def readerWaits : List (Call 1) :=
  [⟨.wait .observerNew, none⟩, ⟨.wait .observerNew, none⟩, ⟨.create (.channelCreate 0), none⟩,
    ⟨.wait (.registerWaitMany 0 [⟨handleFromParts 0 1, Signals.READABLE, 0⟩] ⟨7, by decide⟩ 0),
      none⟩,
    ⟨.wait (.registerWaitMany 0 [⟨handleFromParts 0 1, Signals.PEER_CLOSED, 0⟩] ⟨8, by decide⟩ 1),
      none⟩,
    ⟨.channel (.channelWrite 0 (handleFromParts 1 1) [1] []), none⟩]

/-- The first is told and the second stays. -/
theorem run_no_lost_wakeup_readerWaits : ∃ r ∈ ((System.init 1).execAll readerWaits).1,
    ∃ told ∈ r.before.facetWaiters (.channel 0 .left),
    ∃ kept ∈ r.before.facetWaiters (.channel 0 .left),
      told ∉ r.after.facetWaiters (.channel 0 .left) ∧
      kept ∈ r.after.facetWaiters (.channel 0 .left) ∧
      r.after.notified = [(0, ⟨7, by decide⟩)] := by
  have hvalid : (init 1).validAll readerWaits = true := by decide +kernel
  have hrun := run_execAll hvalid
  let r := ((init 1).execAll readerWaits).1.getLast (by decide +kernel)
  have hr : r ∈ ((init 1).execAll readerWaits).1 := getLast_mem _
  let told : SignalWaiter := ⟨⟨7, by decide⟩, Signals.READABLE, 0, false⟩
  let kept : SignalWaiter := ⟨⟨8, by decide⟩, Signals.PEER_CLOSED, 1, false⟩
  have htold : told ∈ r.before.facetWaiters (.channel 0 .left) := by decide +kernel
  have hkept : kept ∈ r.before.facetWaiters (.channel 0 .left) := by decide +kernel
  have hmet : intersects (r.after.facetSignals (.channel 0 .left)) told.waitFor = true := by
    decide +kernel
  have hnotified : r.after.notified = r.before.notified ++ [(0, ⟨7, by decide⟩)] := by
    decide +kernel
  obtain ⟨more, hmore, hwaiters⟩ := (run_no_lost_wakeup hrun).2.1 r hr
  obtain rfl := append_cancel_left (hmore.symm.trans hnotified)
  refine ⟨r, hr, told, htold, kept, hkept, ((hwaiters _ told htold).2 hmet).1,
    ?_, by decide +kernel⟩
  refine (hwaiters _ kept hkept).1.resolve_right ?_
  rintro (htoken | ⟨-, halive⟩)
  · revert htoken
    decide +kernel
  · revert halive
    decide +kernel

end Ginkgo.Ipc
