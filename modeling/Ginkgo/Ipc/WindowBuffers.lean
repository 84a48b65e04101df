import Ginkgo.Ipc.Simulation.Runs

/-!
# Ownership of window buffers

Every buffer of a window belongs to the client or to exactly one of the three places that
the window keeps: the pending presentation, the displayed one, and the release that the
client has not read.  A presentation moves through these places and is handed back to
the client at most once.
-/

namespace Ginkgo.Ipc

open Ginkgo.Lib Ginkgo.Sysapi List Option WindowState

variable {n : Nat} {kinds : Set Kind} {F F' : Frame n} {past events : List (Event n)}
  {s : System n} {w : WindowId}

/-- The part of a window that says who owns which buffer. -/
structure Surface where
  buffers : List WindowBufferState
  pending : Option WindowPresentation
  displayed : Option WindowPresentation
  release : Option WindowRelease
  nextSerial : Nat

def WindowState.surface (state : WindowState) : Surface :=
  ⟨state.buffers, state.pending, state.displayed, state.release, state.nextSerial⟩

namespace Surface

variable {σ : Surface}

/-- One presentation moves from one place to the next. -/
inductive Step (w : WindowId) : Surface → List (Event n) → Surface → Prop
  | present {σ : Surface} (p : WindowPresentation) (hpending : σ.pending = none)
      (hslot : σ.buffers[p.bufferIndex]? = some .clientOwned)
      (hserial : p.presentationSerial = σ.nextSerial) :
      Step w σ [.presented w p] { σ with
          buffers := σ.buffers.set p.bufferIndex .pending
          pending := some p
          nextSerial := σ.nextSerial + 1 }
  /-- The pending presentation is released unseen. -/
  | discard {σ : Surface} (p : WindowPresentation) (hpending : σ.pending = some p)
      (hrelease : σ.release = none) :
      Step w σ [] { σ with
          buffers := σ.buffers.set p.bufferIndex .released
          pending := none
          release := some p.released }
  | display {σ : Surface} (p : WindowPresentation) (hpending : σ.pending = some p)
      (hdisplayed : σ.displayed = none) :
      Step w σ [] { σ with
          buffers := σ.buffers.set p.bufferIndex .displayed
          pending := none
          displayed := some p }
  /-- The displayed presentation is released. -/
  | retire {σ : Surface} (p : WindowPresentation) (hdisplayed : σ.displayed = some p)
      (hrelease : σ.release = none) :
      Step w σ [] { σ with
          buffers := σ.buffers.set p.bufferIndex .released
          displayed := none
          release := some p.released }
  | readRelease {σ : Surface} (r : WindowRelease) (hrelease : σ.release = some r) :
      Step w σ [.released w r] { σ with
          buffers := σ.buffers.set r.bufferIndex .clientOwned
          release := none }

end Surface

section Operations

variable {state st' : WindowState} {p : WindowPresentation} {r : WindowRelease}

theorem star_present {bufferIndex generation : Nat}
    (h : state.present bufferIndex generation = .ok (p, st')) :
    Star (Surface.Step (n := n) w) state.surface [.presented w p] st'.surface := by
  simp only [present, guard_ok, not_not] at h
  obtain ⟨-, -, -, hpend, -, hslot, h⟩ := h
  rw [not_isSome_iff_eq_none] at hpend
  split at h
  · cases h
  · rename_i nextSerial hadd
    obtain ⟨rfl, -⟩ := checkedAdd_some hadd
    cases h
    exact .single (.present ⟨bufferIndex, generation, state.nextSerial⟩ hpend hslot rfl)

theorem star_readRelease (h : state.readRelease = .ok (r, st')) :
    Star (Surface.Step (n := n) w) state.surface [.released w r] st'.surface := by
  unfold readRelease at h
  split at h
  · split at h <;> cases h
  · rename_i release hrel
    rw [guard_ok] at h
    cases h.2
    exact .single (.readRelease r hrel)

theorem star_discardPending (h : state.discardPending p = .ok st') :
    Star (Surface.Step (n := n) w) state.surface [] st'.surface := by
  simp only [discardPending, guard_ok, not_not, Bool.or_eq_true, not_or] at h
  obtain ⟨hpend, ⟨-, hrel⟩, -, h⟩ := h
  rw [not_isSome_iff_eq_none] at hrel
  cases h
  exact .single (.discard p hpend hrel)

/-- Coalescing is discarding and then presenting the replacement. -/
theorem star_coalescePending {replacement : WindowPresentation}
    {replacementBufferIndex generation : Nat}
    (h : state.coalescePending p replacementBufferIndex generation = .ok (replacement, st')) :
    Star (Surface.Step (n := n) w) state.surface [.presented w replacement] st'.surface := by
  simp only [coalescePending, guard_ok, Bool.or_eq_true, decide_eq_true_eq, not_or, not_not] at h
  obtain ⟨⟨⟨⟨⟨⟨hpend, -⟩, hrel⟩, -⟩, -⟩, -⟩, ⟨hold, hslot⟩, h⟩ := h
  rw [not_isSome_iff_eq_none] at hrel
  split at h
  · cases h
  rename_i nextSerial hadd
  obtain ⟨rfl, -⟩ := checkedAdd_some hadd
  cases h
  have hdiscard : Surface.Step (n := n) w state.surface [] _ := .discard p hpend hrel
  refine (Star.single hdiscard).trans (.single (.present
    ⟨replacementBufferIndex, generation, state.nextSerial⟩ rfl ?_ rfl))
  have hne : p.bufferIndex ≠ replacementBufferIndex := by
    intro heq
    rw [heq, hslot] at hold
    cases hold
  change (state.buffers.set p.bufferIndex .released)[replacementBufferIndex]? = _
  rw [getElem?_set_ne hne, hslot]

/-- Completing releases what was displayed and then displays what was pending. -/
theorem star_complete {successful : Bool} (h : state.complete p successful = .ok (some st')) :
    Star (Surface.Step (n := n) w) state.surface [] st'.surface := by
  simp only [complete, guard_ok, not_not] at h
  obtain ⟨hpend, h⟩ := h
  split at h
  · cases h
  rw [guard_ok] at h
  obtain ⟨-, h⟩ := h
  split at h
  · rename_i hdisplayed
    cases h
    exact .single (.display p hpend hdisplayed)
  · rename_i prev hdisplayed
    simp only [guard_ok] at h
    obtain ⟨hrel, -, h⟩ := h
    rw [not_isSome_iff_eq_none] at hrel
    cases h
    have hretire : Surface.Step (n := n) w state.surface [] _ := .retire prev hdisplayed hrel
    exact (Star.single hretire).trans (.single (.display p hpend rfl))

theorem star_retire (h : state.retire = .ok (some st')) :
    Star (Surface.Step (n := n) w) state.surface [] st'.surface := by
  unfold retire at h
  split at h
  · cases h
  rw [guard_ok] at h
  obtain ⟨hbusy, h⟩ := h
  split at h
  · cases h
    exact .refl _
  rename_i displayed hdisplayed
  rw [guard_ok] at h
  cases h.2
  have hidle : state.pending = none ∧ state.release = none := by
    simpa [hdisplayed] using hbusy
  exact .single (.retire displayed hdisplayed hidle.2)

theorem WindowStep.surface (h : WindowStep (n := n) w state events st') :
    Star (Surface.Step w) state.surface events st'.surface := by
  cases h with
  | present h => exact star_present h
  | readRelease h => exact star_readRelease h
  | discardPending h => exact star_discardPending h
  | coalescePending h => exact star_coalescePending h
  | complete h => exact star_complete h
  | retire h => exact star_retire h
  | close role => cases role <;> exact .refl _

end Operations

namespace Surface

variable {σ σ' : Surface}

/-- Slots are marked exactly as the three places say; every other slot is the client's. -/
structure Marked (σ : Surface) : Prop where
  pending : ∀ i, σ.buffers[i]? = some .pending ↔ σ.pending.map (·.bufferIndex) = some i
  displayed : ∀ i, σ.buffers[i]? = some .displayed ↔ σ.displayed.map (·.bufferIndex) = some i
  released : ∀ i, σ.buffers[i]? = some .released ↔ σ.release.map (·.bufferIndex) = some i

theorem Marked.of_pending (h : σ.Marked) {p : WindowPresentation} (hp : σ.pending = some p) :
    σ.buffers[p.bufferIndex]? = some .pending :=
  (h.pending _).mpr (by rw [hp]; rfl)

theorem Marked.of_displayed (h : σ.Marked) {p : WindowPresentation}
    (hp : σ.displayed = some p) : σ.buffers[p.bufferIndex]? = some .displayed :=
  (h.displayed _).mpr (by rw [hp]; rfl)

theorem Marked.of_release (h : σ.Marked) (hr : σ.release = some r) :
    σ.buffers[r.bufferIndex]? = some .released :=
  (h.released _).mpr (by rw [hr]; rfl)

theorem Marked.step (h : σ.Marked) (hstep : Step (n := n) w σ events σ') : σ'.Marked := by
  obtain ⟨hp, hd, hr⟩ := h
  cases hstep with
  | present p hpend hslot =>
    constructor <;> intro i <;> simp only [getElem?_set_iff hslot] <;> grind
  | discard p hpend hrel =>
    have hslot := (hp p.bufferIndex).mpr (by simp [hpend])
    constructor <;> intro i <;> simp only [getElem?_set_iff hslot] <;>
      grind [WindowPresentation.released]
  | display p hpend hdisplayed =>
    have hslot := (hp p.bufferIndex).mpr (by simp [hpend])
    constructor <;> intro i <;> simp only [getElem?_set_iff hslot] <;> grind
  | retire p hdisplayed hrel =>
    have hslot := (hd p.bufferIndex).mpr (by simp [hdisplayed])
    constructor <;> intro i <;> simp only [getElem?_set_iff hslot] <;>
      grind [WindowPresentation.released]
  | readRelease r hrel =>
    have hslot := (hr r.bufferIndex).mpr (by simp [hrel])
    constructor <;> intro i <;> simp only [getElem?_set_iff hslot] <;> grind

/-! ## Accounts -/

/-- The identities in the three places. -/
def identities (σ : Surface) : List WindowRelease :=
  (σ.pending.map (·.released)).toList ++ (σ.displayed.map (·.released)).toList ++ σ.release.toList

/-- A step hands on identities: what goes in or was there comes out or is there. -/
theorem Step.conserves (h : Step (n := n) w σ events σ') :
    (releasedAt w events ++ σ'.identities).Perm
      ((presentedAt w events).map (·.released) ++ σ.identities) := by
  cases h with
  | present p hpend =>
    simp [identities, hpend, releasedAt, presentedAt, Event.releasedAt?, Event.presentedAt?]
  | discard p hpend hrel =>
    simp [identities, hpend, hrel, releasedAt, presentedAt]
  | display p hpend hdisplayed =>
    simp [identities, hpend, hdisplayed, releasedAt, presentedAt]
  | retire p hdisplayed hrel =>
    simp [identities, hdisplayed, hrel, releasedAt, presentedAt]
  | readRelease r hrel =>
    have hreleased : releasedAt (n := n) w [.released w r] = [r] := by
      simp [releasedAt, Event.releasedAt?]
    rw [hreleased]
    simp only [identities, hrel, toList, append_nil]
    exact (perm_append_singleton r _).symm

theorem Step.presented (h : Step (n := n) w σ events σ') :
    (presentedAt w events = [] ∧ σ'.nextSerial = σ.nextSerial) ∨
      ∃ p, presentedAt w events = [p] ∧ p.presentationSerial = σ.nextSerial ∧
        σ'.nextSerial = σ.nextSerial + 1 := by
  cases h with
  | present p hpend hslot hserial =>
    exact .inr ⟨p, by simp [presentedAt, Event.presentedAt?], hserial, rfl⟩
  | _ => exact .inl ⟨rfl, rfl⟩

/-- Serials are given out once, and what the client got back or is still held is distinct
and was presented. -/
structure Accounted (w : WindowId) (events : List (Event n)) (σ : Surface) : Prop where
  marked : σ.Marked
  presented : ((presentedAt w events).map (·.presentationSerial)).Nodup
  below : ∀ p ∈ presentedAt w events, p.presentationSerial < σ.nextSerial
  distinct : ((releasedAt w events ++ σ.identities).map (·.presentationSerial)).Nodup
  accepted : ∀ r ∈ releasedAt w events ++ σ.identities, ∃ p ∈ presentedAt w events, p.released = r

theorem Accounted.serial_lt (h : Accounted w events σ)
    (hr : r ∈ releasedAt w events ++ σ.identities) : r.presentationSerial < σ.nextSerial := by
  obtain ⟨p, hp, rfl⟩ := h.accepted r hr
  exact h.below p hp

theorem Accounted.step (h : Accounted w past σ) (hstep : Step w σ events σ') :
    Accounted w (past ++ events) σ' := by
  have hperm : (releasedAt w (past ++ events) ++ σ'.identities).Perm
      ((presentedAt w events).map (·.released) ++ (releasedAt w past ++ σ.identities)) := by
    rw [releasedAt_append, append_assoc]
    refine (hstep.conserves.append_left _).trans ?_
    rw [← append_assoc, ← append_assoc]
    exact perm_append_comm.append_right _
  rcases hstep.presented with ⟨hnone, hserial⟩ | ⟨p, hone, hp, hserial⟩
  · rw [hnone] at hperm
    have hpresented : presentedAt w (past ++ events) = presentedAt w past := by
      rw [presentedAt_append, hnone, append_nil]
    refine ⟨h.marked.step hstep, ?_, ?_, ?_, ?_⟩
    · rw [hpresented]
      exact h.presented
    · rw [hpresented, hserial]
      exact h.below
    · exact (hperm.map _).nodup_iff.mpr h.distinct
    · rw [hpresented]
      exact fun r hr => h.accepted r (hperm.mem_iff.mp hr)
  · rw [hone, map_singleton, singleton_append] at hperm
    have hpresented : presentedAt w (past ++ events) = presentedAt w past ++ [p] := by
      rw [presentedAt_append, hone]
    refine ⟨h.marked.step hstep, ?_, ?_, ?_, ?_⟩
    · rw [hpresented, map_append, nodup_append]
      refine ⟨h.presented, nodup_singleton _, ?_⟩
      intro a ha b hb
      obtain ⟨q, hq, rfl⟩ := mem_map.mp ha
      rw [map_singleton, mem_singleton] at hb
      have := h.below q hq
      omega
    · rw [hpresented]
      intro q hq
      rcases mem_append.mp hq with hq | hq
      · have := h.below q hq
        omega
      · rw [mem_singleton.mp hq]
        omega
    · refine (hperm.map _).nodup_iff.mpr ?_
      rw [map_cons, nodup_cons]
      refine ⟨?_, h.distinct⟩
      intro hmem
      obtain ⟨r, hr, heq⟩ := mem_map.mp hmem
      have hlt := h.serial_lt hr
      change r.presentationSerial = p.presentationSerial at heq
      omega
    · rw [hpresented]
      intro r hr
      rcases mem_cons.mp (hperm.mem_iff.mp hr) with rfl | hr
      · exact ⟨p, mem_append_right _ (mem_singleton_self p), rfl⟩
      · obtain ⟨q, hq, rfl⟩ := h.accepted r hr
        exact ⟨q, mem_append_left _ hq, rfl⟩

theorem Accounted.star (h : Accounted w past σ) (hstar : Star (Step w) σ events σ') :
    Accounted w (past ++ events) σ' := by
  refine hstar.invariant (I := fun events σ => Accounted w (past ++ events) σ) ?_ ?_
  · rwa [append_nil]
  · intro hist a events b ih hstep
    rw [← append_assoc]
    exact ih.step hstep

theorem Accounted.frame (h : Accounted w past σ) (hpresented : presentedAt w events = [])
    (hreleased : releasedAt w events = []) : Accounted w (past ++ events) σ := by
  have hp : presentedAt w (past ++ events) = presentedAt w past := by
    rw [presentedAt_append, hpresented, append_nil]
  have hr : releasedAt w (past ++ events) = releasedAt w past := by
    rw [releasedAt_append, hreleased, append_nil]
  refine ⟨h.marked, ?_, ?_, ?_, ?_⟩
  · rw [hp]
    exact h.presented
  · rw [hp]
    exact h.below
  · rw [hr]
    exact h.distinct
  · rw [hp, hr]
    exact h.accepted

end Surface

/-! ## What a move does to the windows -/

inductive WindowEffect (F F' : Frame n) (events : List (Event n)) : Prop
  | same (hevents : ∀ e ∈ events, e.isWindow = false)
      (hnext : F'.sys.windows.next = F.sys.windows.next)
      (hsurface : ∀ w, (F'.sys.windows.cell w).surface = (F.sys.windows.cell w).surface)
  | created (hevents : events = []) (hnext : F'.sys.windows.next = F.sys.windows.next + 1)
      (bufferCount : Nat)
      (hnew : (F'.sys.windows.cell F.sys.windows.next).surface =
        ⟨replicate bufferCount .clientOwned, none, none, none, 1⟩)
      (hsurface : ∀ w, w ≠ F.sys.windows.next →
        (F'.sys.windows.cell w).surface = (F.sys.windows.cell w).surface)
  | stepped (w : WindowId) (hcell : w < F.sys.windows.next)
      (hnext : F'.sys.windows.next = F.sys.windows.next)
      (hstep : Star (Surface.Step w) (F.sys.windows.cell w).surface events
        (F'.sys.windows.cell w).surface)
      (hsurface : ∀ v, v ≠ w → (F'.sys.windows.cell v).surface = (F.sys.windows.cell v).surface)

theorem WindowEffect.of_windows (hevs : ∀ e ∈ events, e.isWindow = false)
    (h : F'.sys.windows = F.sys.windows) : WindowEffect F F' events :=
  .same hevs (by rw [h]) fun w => by rw [h]

theorem surface_withFacetWaiters (facet : WaitFacet) (waiters : List SignalWaiter) (w : WindowId) :
    ((s.withFacetWaiters facet waiters).windows.cell w).surface = (s.windows.cell w).surface :=
  s.window_withFacetWaiters facet waiters (·.surface) (fun _ _ _ => rfl) w

theorem Transfer.windowEffect (h : Transfer F events F') : WindowEffect F F' events := by
  have hevs : ∀ e ∈ events, e.isWindow = false := by
    cases h <;> simp [Event.isWindow]
  apply WindowEffect.of_windows hevs
  cases h with
  | createChannel left right hs1 hleft hs2 hright =>
    subst hs1 hs2
    rfl
  | _ => rfl

theorem Release.windowEffect (h : Release F events F') : WindowEffect F F' events := by
  have hevs : ∀ e ∈ events, e.isWindow = false := by
    cases h <;> simp [Event.isWindow]
  apply WindowEffect.of_windows hevs
  cases h <;> rfl

theorem Service.windowEffect (h : Service F events F') : WindowEffect F F' events := by
  cases h with
  | silent h => exact .of_windows (by simp) h.windows
  | @newWindow s sharedMemory bufferLen generation bufferCount =>
    refine .created rfl rfl bufferCount ?_ fun w hw => ?_
    · change ((s.windows.alloc _).cell s.windows.next).surface = _
      rw [Heap.cell_alloc_self]
      rfl
    · change w ≠ s.windows.next at hw
      change ((s.windows.alloc _).cell w).surface = _
      rw [Heap.cell_alloc_of_ne _ _ hw]
      rfl
  | @window s doomed state events w hcell hstep =>
    refine .stepped w hcell rfl ?_ fun v hv => ?_
    · change Star _ _ _ ((s.setWindow w state).windows.cell w).surface
      rw [s.cell_setWindow, if_pos rfl]
      exact hstep.surface
    · change ((s.setWindow w state).windows.cell v).surface = _
      rw [s.cell_setWindow, if_neg hv]
  | @readPending s w hcell =>
    refine .same (by simp) rfl fun v => ?_
    change ((s.setWindow w _).windows.cell v).surface = (s.windows.cell v).surface
    rw [s.cell_setWindow]
    split
    · rename_i hv
      rw [hv]
      rfl
    · rfl
  | @notify s hand doomed facet dirty =>
    have hnext := s.windows_next_withFacetWaiters facet
      (notifyWaiters (s.facetWaiters facet) (s.facetSignals facet)).2
    exact .same (by simp) hnext (surface_withFacetWaiters facet _)
  | _ => exact .of_windows (by simp) rfl

theorem Wait.windowEffect (h : Wait F events F') : WindowEffect F F' events := by
  cases h with
  | silent h => exact .of_windows (by simp) h.windows
  | observers => exact .of_windows (by simp) rfl
  | register | unregister =>
    exact .same (by simp) (System.windows_next_withFacetWaiters ..) (surface_withFacetWaiters _ _)

theorem Moves.windowEffect (h : Moves kinds F events F') : WindowEffect F F' events := by
  cases h with
  | transfer _ h | release _ h | service _ h | wait _ h => exact h.windowEffect

theorem presentedAt_of_not_isWindow (h : ∀ e ∈ events, e.isWindow = false) :
    presentedAt w events = [] ∧ releasedAt w events = [] := by
  constructor
  · refine filterMap_eq_nil_iff.mpr fun e he => ?_
    have := h e he
    cases e <;> simp_all [Event.isWindow, Event.presentedAt?]
  · refine filterMap_eq_nil_iff.mpr fun e he => ?_
    have := h e he
    cases e <;> simp_all [Event.isWindow, Event.releasedAt?]

theorem eventsAt_of_step {σ σ' : Surface} {v : WindowId} (h : Star (Surface.Step w) σ events σ')
    (hv : v ≠ w) : presentedAt v events = [] ∧ releasedAt v events = [] := by
  refine h.invariant
    (I := fun events _ => presentedAt v events = [] ∧ releasedAt v events = [])
    ⟨rfl, rfl⟩ ?_
  rintro past a events b ⟨hp, hr⟩ hstep
  rw [presentedAt_append, releasedAt_append, hp, hr]
  have hne : ¬w = v := fun heq => hv heq.symm
  cases hstep <;> simp [presentedAt, releasedAt, Event.presentedAt?, Event.releasedAt?, hne]

structure WindowsAccounted (events : List (Event n)) (F : Frame n) : Prop where
  accounted : ∀ w, (F.sys.windows.cell w).surface.Accounted w events
  fresh : ∀ w, F.sys.windows.next ≤ w → presentedAt w events = [] ∧ releasedAt w events = []

theorem Surface.accounted_new (hpresented : presentedAt w events = [])
    (hreleased : releasedAt w events = []) (bufferCount : Nat) :
    Surface.Accounted w events ⟨replicate bufferCount .clientOwned, none, none, none, 1⟩ := by
  refine ⟨⟨?_, ?_, ?_⟩, ?_, ?_, ?_, ?_⟩
  · simp [getElem?_replicate]
  · simp [getElem?_replicate]
  · simp [getElem?_replicate]
  · simp [hpresented]
  · simp [hpresented]
  · simp [hreleased, Surface.identities]
  · simp [hreleased, Surface.identities]

theorem WindowsAccounted.move (h : WindowsAccounted past F) (hmove : Moves kinds F events F') :
    WindowsAccounted (past ++ events) F' := by
  cases hmove.windowEffect with
  | same hevs hnext hsurface =>
    have hnone w := presentedAt_of_not_isWindow (w := w) hevs
    refine ⟨fun w => ?_, fun w hw => ?_⟩
    · rw [hsurface]
      exact (h.accounted w).frame (hnone w).1 (hnone w).2
    · rw [hnext] at hw
      rw [presentedAt_append, releasedAt_append, (hnone w).1, (hnone w).2, append_nil, append_nil]
      exact h.fresh w hw
  | created hevs hnext bufferCount hnew hsurface =>
    subst hevs
    rw [append_nil]
    refine ⟨fun w => ?_, fun w hw => h.fresh w (by omega)⟩
    by_cases hw : w = F.sys.windows.next
    · subst hw
      rw [hnew]
      obtain ⟨hpresented, hreleased⟩ := h.fresh _ le_rfl
      exact Surface.accounted_new hpresented hreleased bufferCount
    · rw [hsurface w hw]
      exact h.accounted w
  | stepped w hcell hnext hstep hsurface =>
    refine ⟨fun v => ?_, fun v hv => ?_⟩
    · by_cases hv : v = w
      · subst hv
        exact (h.accounted v).star hstep
      · rw [hsurface v hv]
        obtain ⟨hp, hr⟩ := eventsAt_of_step hstep hv
        exact (h.accounted v).frame hp hr
    · rw [hnext] at hv
      have hne : v ≠ w := Nat.ne_of_gt (hcell.trans_le hv)
      obtain ⟨hp, hr⟩ := eventsAt_of_step hstep hne
      rw [presentedAt_append, releasedAt_append, hp, hr, append_nil, append_nil]
      exact h.fresh v hv

theorem windowsAccounted_of_star (h : Star (Moves kinds) (System.init n).frame events F) :
    WindowsAccounted events F := by
  refine h.invariant ?_
    fun _ _ _ _ ih hmove => ih.move hmove
  exact ⟨fun w => Surface.accounted_new rfl rfl 0, fun _ _ => ⟨rfl, rfl⟩⟩

/-! ## The checks that cannot fail -/

section Checks

variable {state : WindowState} (h : state.surface.Marked) {p : WindowPresentation}

include h

section

variable (hp : state.pending = some p)
include hp

theorem discardPending_ne_invalidMessage : state.discardPending p ≠ .error .invalidMessage := by
  have hslot : state.buffers[p.bufferIndex]? = some .pending := h.of_pending hp
  unfold discardPending
  rw [if_neg (not_not.mpr hp), if_neg (not_not.mpr hslot)]
  split <;> simp

theorem complete_ne_invalidMessage (successful : Bool) :
    state.complete p successful ≠ .error .invalidMessage := by
  have hslot : state.buffers[p.bufferIndex]? = some .pending := h.of_pending hp
  unfold complete
  rw [if_neg (not_not.mpr hp), if_neg (not_not.mpr hslot)]
  split
  · simp
  split
  · simp
  · rename_i prev hdisplayed
    have hprev : state.buffers[prev.bufferIndex]? = some .displayed := h.of_displayed hdisplayed
    rw [if_neg (not_not.mpr hprev)]
    split <;> simp

theorem coalescePending_invalidMessage {ri generation : Nat}
    (herr : state.coalescePending p ri generation = .error .invalidMessage) :
    state.buffers[ri]? ≠ some .clientOwned ∨ checkedAdd state.nextSerial 1 = none := by
  have hslot : state.buffers[p.bufferIndex]? = some .pending := h.of_pending hp
  unfold coalescePending at herr
  split at herr
  · cases herr
  split at herr
  · rename_i hslots
    simp only [hslot, ne_eq, not_true_eq_false, decide_false, Bool.false_or,
      decide_eq_true_eq] at hslots
    exact .inl hslots
  · split at herr
    · rename_i hadd
      exact .inr hadd
    · cases herr

end

theorem retire_ne_invalidMessage : state.retire ≠ .error .invalidMessage := by
  unfold retire
  split
  · simp
  split
  · simp
  · split
    · simp
    · rename_i displayed hdisplayed
      have hslot : state.buffers[displayed.bufferIndex]? = some .displayed :=
        h.of_displayed hdisplayed
      rw [if_neg (not_not.mpr hslot)]
      simp

theorem readRelease_ne_invalidMessage : state.readRelease ≠ .error .invalidMessage := by
  unfold readRelease
  split
  · split <;> simp
  · rename_i release hrel
    have hslot : state.buffers[release.bufferIndex]? = some .released := h.of_release hrel
    rw [if_neg (not_not.mpr hslot)]
    simp

end Checks

/-- In every state that a run reaches, the slots of a window are marked exactly as its
pending, displayed and released presentations say, and their identities are distinct with
serials below the next one.  So no operation on the pending presentation finds a slot in
an unexpected state.  A serial is accepted once, and read back by the client at most once. -/
theorem run_window_buffers_owned {trace : List (Record n)} (h : Run trace s) (w : WindowId) :
    (s.windows.cell w).surface.Marked ∧
    (∀ i mark, (s.windows.cell w).buffers[i]? = some mark →
      (s.windows.cell w).pending.map (·.bufferIndex) ≠ some i →
      (s.windows.cell w).displayed.map (·.bufferIndex) ≠ some i →
      (s.windows.cell w).release.map (·.bufferIndex) ≠ some i → mark = .clientOwned) ∧
    ((s.windows.cell w).surface.identities.map (·.presentationSerial)).Nodup ∧
    (∀ r ∈ (s.windows.cell w).surface.identities,
      r.presentationSerial < (s.windows.cell w).nextSerial) ∧
    (∀ p, (s.windows.cell w).pending = some p →
      (s.windows.cell w).discardPending p ≠ .error .invalidMessage ∧
      (∀ successful, (s.windows.cell w).complete p successful ≠ .error .invalidMessage) ∧
      ∀ i generation, (s.windows.cell w).coalescePending p i generation = .error .invalidMessage →
        (s.windows.cell w).buffers[i]? ≠ some .clientOwned ∨
          checkedAdd (s.windows.cell w).nextSerial 1 = none) ∧
    (s.windows.cell w).retire ≠ .error .invalidMessage ∧
    (s.windows.cell w).readRelease ≠ .error .invalidMessage ∧
    ((presentedAt w (shown trace)).map (·.presentationSerial)).Nodup ∧
    ((releasedAt w (shown trace)).map (·.presentationSerial)).Nodup ∧
    (∀ r ∈ releasedAt w (shown trace), ∃ p ∈ presentedAt w (shown trace), p.released = r) := by
  have haccounted := (windowsAccounted_of_star h.simulated).accounted w
  change (s.windows.cell w).surface.Accounted w (shown trace) at haccounted
  have hmarked := haccounted.marked
  have hdistinct := haccounted.distinct
  rw [map_append] at hdistinct
  refine ⟨hmarked, ?_, hdistinct.of_append_right, ?_, ?_, retire_ne_invalidMessage hmarked,
    readRelease_ne_invalidMessage hmarked, haccounted.presented, hdistinct.of_append_left, ?_⟩
  · intro i mark hmark hpending hdisplayed hreleased
    cases mark with
    | clientOwned => rfl
    | pending => exact absurd ((hmarked.pending i).mp hmark) hpending
    | displayed => exact absurd ((hmarked.displayed i).mp hmark) hdisplayed
    | released => exact absurd ((hmarked.released i).mp hmark) hreleased
  · intro r hr
    exact haccounted.serial_lt (mem_append_right _ hr)
  · intro p hp
    exact ⟨discardPending_ne_invalidMessage hmarked hp, complete_ne_invalidMessage hmarked hp,
      fun _ _ => coalescePending_invalidMessage hmarked hp⟩
  · intro r hr
    exact haccounted.accepted r (mem_append_left _ hr)

/-- A pending presentation is replaced, and its release is read while the replacement is
still pending. -/
def coalesced : List (Call 1) :=
  [⟨.control (.storageNew ⟨8, 4096, [0], replicate 8 0⟩), none⟩,
    ⟨.create (.sharedMemoryCreateWithStorage 0 0), none⟩,
    ⟨.create (.windowCreate 0 (handleFromParts 0 1)), none⟩,
    ⟨.window (.windowPresent 0 (handleFromParts 1 1) 0 1), none⟩,
    ⟨.window (.windowManagerCoalescePending 0 (handleFromParts 2 1) ⟨0, 1, 1⟩ 1 1), none⟩,
    ⟨.window (.windowReadRelease 0 (handleFromParts 1 1)), none⟩]

theorem run_window_buffers_owned_coalesced :
    (((System.init 1).execAll coalesced).2.windows.cell 0).pending = some ⟨1, 1, 2⟩ ∧
      (((System.init 1).execAll coalesced).2.windows.cell 0).discardPending ⟨1, 1, 2⟩ ≠
        .error .invalidMessage ∧
      releasedAt 0 (shown ((System.init 1).execAll coalesced).1) = [⟨0, 1, 1⟩] := by
  have hvalid : (System.init 1).validAll coalesced = true := by decide +kernel
  have hpending : (((System.init 1).execAll coalesced).2.windows.cell 0).pending =
      some ⟨1, 1, 2⟩ := by
    decide +kernel
  have howned := run_window_buffers_owned (run_execAll hvalid) 0
  exact ⟨hpending, (howned.2.2.2.2.1 _ hpending).1, by decide +kernel⟩

end Ginkgo.Ipc
