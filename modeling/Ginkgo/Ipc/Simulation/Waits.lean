import Ginkgo.Ipc.Simulation

/-!
# Waiting

Registering and unregistering waiters changes no level.  A registration that finds a level
already met retains nothing for it and calls the observer once, at the end.
-/

namespace Ginkgo.Ipc

open Ginkgo.Lib Ginkgo.Sysapi

variable {n : Nat} {s0 s s' : System n} {t : Fin n} {facet : WaitFacet} {token : WaitToken}
  {observer : ObserverId}

/-- The kinds of moves of the owner of a wait registration. -/
def waiting : Set Kind := {.wait}

theorem wait_mem_waiting : Kind.wait ∈ waiting := rfl

/-- The levels, the tables and what observers were told are the same. -/
structure SameLevels (s s' : System n) : Prop where
  tables : s'.tables = s.tables
  signals : s'.facetSignals = s.facetSignals
  observers : s'.observers = s.observers
  notified : s'.notified = s.notified

namespace SameLevels

theorem refl (s : System n) : SameLevels s s := ⟨rfl, rfl, rfl, rfl⟩

theorem trans {s1 s2 s3 : System n} (h : SameLevels s1 s2) (h' : SameLevels s2 s3) :
    SameLevels s1 s3 :=
  ⟨h'.tables.trans h.tables, h'.signals.trans h.signals, h'.observers.trans h.observers,
    h'.notified.trans h.notified⟩

theorem withFacetWaiters (s : System n) (facet : WaitFacet) (waiters : List SignalWaiter) :
    SameLevels s (s.withFacetWaiters facet waiters) :=
  ⟨by simp, s.facetSignals_withFacetWaiters facet waiters, by simp, by simp⟩

theorem withMemory (s : System n) (m : Budget) : SameLevels s { s with memory := m } :=
  ⟨rfl, by funext facet; cases facet <;> rfl, rfl, rfl⟩

end SameLevels

/-- The level that an item waits for is already met. -/
def ItemReady (s : System n) (t : Fin n) (item : WaitItem) : Prop :=
  ∃ e facet, (s.tables t).entry item.handle = .ok e ∧ waitFacet e.object = .ok facet ∧
    Bitflags.intersects (s.facetSignals facet) item.waitFor = true

theorem SameLevels.ready (h : SameLevels s s') (item : WaitItem) :
    ItemReady s' t item ↔ ItemReady s t item := by
  unfold ItemReady
  rw [h.tables, h.signals]

theorem waitFacet_allocated {object : Object} (h : waitFacet object = .ok facet)
    (hcell : object.kernel.Allocated s) : facet.Allocated s := by
  obtain ⟨id, kernel⟩ := object
  cases kernel with
  | channel | window | process | request => cases h; exact hcell
  | _ => cases h

theorem WaitFacet.Allocated.congr (h : facet.Allocated s) (hsame : SameObjects s s') :
    facet.Allocated s' := by
  cases facet with
  | channel => exact h.trans_le hsame.grows.channels
  | window => exact h.trans_le hsame.grows.windows
  | process => exact h.trans_le hsame.grows.processes
  | request => exact h.trans_le hsame.grows.requests

section

variable (h : Reaches waiting s0 s)
include h

theorem wp_registerFacet (hcell : facet.Allocated s) {waitFor : Signals}
    {Q : Bool → System n → Prop}
    (hready : Bitflags.intersects (s.facetSignals facet) waitFor = true → Q false s)
    (hretained : ∀ s', Bitflags.intersects (s.facetSignals facet) waitFor = false →
      Reaches waiting s0 s' → SameLevels s s' → Q true s') :
    wp (registerFacet facet token waitFor observer) Q (Fails waiting s0) s := by
  apply wp_ite
  · intro hmet
    exact wp_pure (hready hmet)
  intro hmet
  simp only [Bool.not_eq_true] at hmet
  apply wp_bind
  apply wp_zoom
  apply wp_registerSignalWaiter
  · intro m
    have hsame := SameObjects.withMemory s m
    have h1 := h.silent (.inr wait_mem_waiting) hsame
    have hreg := Wait.register facet ⟨token, waitFor, observer, false⟩ (hcell.congr hsame) hmet rfl
    apply hretained _ hmet
    · exact Star.quiet h1 (.wait wait_mem_waiting hreg)
    · exact (SameLevels.withMemory s m).trans (.withFacetWaiters _ _ _)
  · intro e m
    exact ⟨⟨e, rfl⟩, h.silent (.inr wait_mem_waiting) (.aside s)⟩

theorem wp_registerItem (hwf : Wf s.frame) {item : WaitItem}
    {Q : Option WaitFacet → System n → Prop} (hready : ItemReady s t item → Q none s)
    (hretained : ∀ facet s', ¬ItemReady s t item → Reaches waiting s0 s' → SameLevels s s' →
      Q (some facet) s') : wp (registerItem t token observer item) Q (Fails waiting s0) s := by
  apply wp_bind
  apply wp_entry h
  intro e hent
  apply wp_guard h
  intro _
  apply wp_liftExcept_bind h
  intro facet hfacet
  have hcell := waitFacet_allocated hfacet (hwf.allocated_entry hent)
  apply wp_bind
  apply wp_registerFacet h hcell
  · intro hmet
    exact wp_pure (hready ⟨e, facet, hent, hfacet, hmet⟩)
  intro s' hunmet h' hlevels
  apply hretained facet s' _ h' hlevels
  rintro ⟨e', facet', hent', hfacet', hmet⟩
  rw [hent] at hent'
  cases hent'
  rw [hfacet] at hfacet'
  cases hfacet'
  rw [hmet] at hunmet
  cases hunmet

theorem Reaches.unregisterAll (token : WaitToken)
    (facets : List WaitFacet) : Reaches waiting s0 (s.unregisterAll token facets) := by
  induction facets generalizing s with
  | nil => exact h
  | cons facet facets ih =>
    exact ih (Star.quiet h (.wait wait_mem_waiting (.unregister facet token)))

end

theorem wp_registerItems (hwf : Wf s0.frame) (h : Reaches waiting s0 s) {items : List WaitItem}
    {facets : List WaitFacet} {ready : Bool} {Q : List WaitFacet × Bool → System n → Prop}
    (hQ : ∀ facets' ready' s', (ready' = true ↔ ready = true ∨ ∃ item ∈ items, ItemReady s t item) →
      Reaches waiting s0 s' → SameLevels s s' → Q (facets', ready') s') :
    wp (registerItems t token observer items facets ready) Q (Fails waiting s0) s := by
  induction items generalizing s facets ready with
  | nil => exact wp_pure (hQ facets ready s (by simp) h (.refl s))
  | cons item rest ih =>
    apply wp_bind
    apply wp_attempt
    refine wp_mono (wp_registerItem h (hwf.star h) (Q := fun r s' =>
      Reaches waiting s0 s' ∧ SameLevels s s' ∧ (r = none ↔ ItemReady s t item)) ?_ ?_) ?_ ?_
    · intro hready
      exact ⟨h, .refl s, by simp [hready]⟩
    · intro facet s' hunready h' hlevels
      exact ⟨h', hlevels, by simp [hunready]⟩
    · rintro (_ | facet) s1 ⟨h1, hlevels, hnone⟩
      · apply ih h1
        intro facets' ready' s2 hready2 h2 hlevels2
        apply hQ facets' ready' s2 _ h2 (hlevels.trans hlevels2)
        rw [hready2]
        simp [hnone.mp rfl]
      · apply ih h1
        intro facets' ready' s2 hready2 h2 hlevels2
        apply hQ facets' ready' s2 _ h2 (hlevels.trans hlevels2)
        have hunready : ¬ItemReady s t item := fun hitem => by
          cases hnone.mpr hitem
        rw [hready2]
        simp [hlevels.ready, hunready]
    · rintro fault s1 ⟨herr, h1⟩
      apply wp_modify_bind
      exact wp_throw ⟨herr, h1.unregisterAll token facets⟩

theorem wp_registerWaitMany (hwf : Wf s.frame) {items : List WaitItem}
    (halive : s.observers.cell observer = true) :
    wp (registerWaitMany t items token observer) (fun _ s' => Reaches waiting s s' ∧
        ((∃ item ∈ items, ItemReady s t item) → s'.notified = s.notified ++ [(observer, token)]) ∧
        ((¬∃ item ∈ items, ItemReady s t item) → s'.notified = s.notified))
      (Fails waiting s) s := by
  apply wp_bind
  apply wp_zoom
  apply wp_allocCapacity
  · intro m
    have h1 := (Reaches.refl s).silent (.inr wait_mem_waiting) (.withMemory s m)
    apply wp_bind
    apply wp_registerItems hwf h1
    intro facets ready s2 hready h2 hlevels
    have hlevels' := (SameLevels.withMemory s m).trans hlevels
    simp only [Bool.false_eq_true, false_or] at hready
    apply wp_ite
    · intro hmet
      apply wp_ite
      · intro hdead
        rw [hlevels'.observers, halive] at hdead
        cases hdead
      · intro _
        apply wp_set_bind
        apply wp_get
        apply wp_set_bind
        apply wp_pure
        refine ⟨h2.silent (.inr wait_mem_waiting) ?_, ?_, ?_⟩
        · exact ⟨rfl, rfl, rfl, rfl, rfl, rfl, le_rfl, le_rfl, _, rfl⟩
        · intro _
          change s2.notified ++ _ = _
          rw [hlevels'.notified]
        · intro hnone
          exact absurd (hready.mp hmet) hnone
    · intro hunmet
      apply wp_get
      apply wp_set_bind
      apply wp_pure
      refine ⟨h2.silent (.inr wait_mem_waiting) ?_, ?_, ?_⟩
      · exact ⟨rfl, rfl, rfl, rfl, rfl, rfl, le_rfl, le_rfl, [], (List.append_nil _).symm⟩
      · intro hsome
        exact absurd (hready.mpr hsome) hunmet
      · intro _
        exact hlevels'.notified
  · intro m
    exact ⟨⟨_, rfl⟩, (Reaches.refl s).silent (.inr wait_mem_waiting) (.aside s)⟩

theorem dropRegistration_simulated (registration : RegistrationId) :
    Simulated waiting (dropRegistration registration) (fun _ _ => []) s := by
  apply wp_get
  cases hcell : s.registrations.cell registration with
  | none => exact wp_pure (.refl _)
  | some registered =>
    obtain ⟨token, facets⟩ := registered
    have hquiet := (Reaches.refl s).unregisterAll token facets
    exact hquiet.silent (.inr wait_mem_waiting)
      ⟨rfl, rfl, rfl, rfl, rfl, rfl, le_rfl, le_rfl, [], (List.append_nil _).symm⟩

theorem WaitOp.simulated (hwf : Wf s.frame) (op : WaitOp n)
    (hvalid : (Op.wait op).valid s = true) : Simulated waiting op.run (fun _ _ => []) s := by
  cases op with
  | observerNew =>
    apply wp_get
    apply wp_set_bind
    exact wp_pure (.single (.wait wait_mem_waiting .observers))
  | observerDrop observer =>
    apply wp_modify_bind
    exact wp_pure (.single (.wait wait_mem_waiting .observers))
  | registerWaitMany t items token observer =>
    apply Simulated.map
    apply wp_mono (wp_registerWaitMany hwf hvalid)
    · rintro registration s' ⟨hrch, -⟩
      exact hrch
    · exact fun _ _ hfail => hfail
  | dropRegistration registration => exact (dropRegistration_simulated registration).bind_pure

end Ginkgo.Ipc
