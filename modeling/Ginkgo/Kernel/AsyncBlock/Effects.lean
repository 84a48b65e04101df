import Ginkgo.Kernel.AsyncBlock.Queues

/-!
# Ending requests

What the internal calls that abort, fail and finish requests leave behind: the new slots, with
the devices as they were, and queues in which nobody else's entry was lost.
-/

namespace Ginkgo.Kernel.AsyncBlock.AsyncBlockQueue

open Ginkgo.Lib List Bool

variable {s s' s'' : AsyncBlockQueue} {i : Nat} {slot : RequestSlot}
  {slots slots' : List RequestSlot}

/-- The slots become `slots`; the shutdown may come to its end. -/
structure Leaves (s s' : AsyncBlockQueue) (slots : List RequestSlot) : Prop where
  config : s'.config = s.config
  slots : s'.slots = slots
  devices : s'.devices = s.devices
  shutdown : s'.shutdown = s.shutdown ∨
    s.shutdown = .quiescing ∧ s'.shutdown = .drained ∧ s'.table.Idle
  idle : s.table.Idle → s'.table.Idle
  queued : s.Queued → s'.Queued

theorem Leaves.refl (s : AsyncBlockQueue) : Leaves s s s.slots :=
  ⟨rfl, rfl, rfl, .inl rfl, fun h => h, fun h => h⟩

theorem Leaves.trans (h : Leaves s s' slots) (h' : Leaves s' s'' slots') : Leaves s s'' slots' := by
  refine ⟨h'.config.trans h.config, h'.slots, h'.devices.trans h.devices, ?_,
    fun hidle => h'.idle (h.idle hidle), fun hqueued => h'.queued (h.queued hqueued)⟩
  rcases h.shutdown with hsame | ⟨hqsc, hdrained, hidle⟩
  · rw [← hsame]
    exact h'.shutdown
  refine .inr ⟨hqsc, ?_, h'.idle hidle⟩
  rcases h'.shutdown with hsame | ⟨hqsc', -⟩
  · exact hsame.trans hdrained
  · rw [hdrained] at hqsc'
    cases hqsc'

theorem updateShutdownState_leaves (s : AsyncBlockQueue) :
    Leaves s s.updateShutdownState s.slots := by
  unfold updateShutdownState
  split
  · exact .refl s
  rename_i hqsc
  simp only
  split
  · rename_i hdone
    simp only [and_eq_true, not_eq_true', any_eq_false] at hdone
    have hidle : s.table.Idle := ⟨fun slot hmem => eq_false_iff.mpr (hdone.1.1 slot hmem),
      fun device hmem => eq_false_iff.mpr fun howes =>
        hdone.1.2 device hmem (and_eq_true_iff.mp howes)⟩
    exact ⟨rfl, rfl, rfl, .inr ⟨not_not.mp hqsc, rfl, ⟨hidle.requests, hidle.flushes⟩⟩,
      fun h => ⟨h.requests, h.flushes⟩, fun h => h.of_eq rfl rfl⟩
  · exact .refl s

theorem idle_set {t : Table} (hidle : t.Idle) (hslot : t.slots[i]? = some slot)
    {slot' : RequestSlot} (hlive : slot'.isLive = true → slot.isLive = true) :
    ({ t with slots := t.slots.set i slot' } : Table).Idle := by
  refine ⟨forall_mem_set hidle.requests (eq_false_iff.mpr fun h => ?_), hidle.flushes⟩
  rw [hidle.requests slot (mem_of_getElem? hslot)] at hlive
  exact absurd (hlive h) false_ne_true

section

variable (hslot : s.slots[i]? = some slot)
include hslot

/-- A slot changes in a way that the queues need not know of. -/
theorem set_leaves (slot' : RequestSlot) (hlive : slot'.isLive = true → slot.isLive = true)
    (hent : slot'.queuedEntry = true → slot.queuedEntry = true ∧ slot'.priority = slot.priority ∧
      slot'.generation = slot.generation) :
    Leaves s { s with slots := s.slots.set i slot' } (s.slots.set i slot') := by
  refine ⟨rfl, rfl, rfl, .inl rfl, fun hidle => idle_set hidle hslot hlive,
    fun h => h.set hslot rfl (fun _ _ hmem _ => hmem) ?_⟩
  intro hqueued
  obtain ⟨hold, hprio, hgen⟩ := hent hqueued
  rw [hprio, hgen]
  exact h.listed i slot hslot hold

theorem removeQueuedEntry_leaves :
    Leaves s (s.removeQueuedEntry i) (s.slots.set i { slot with queuedEntry := false }) := by
  unfold removeQueuedEntry
  simp only [hslot]
  split
  · refine ⟨rfl, rfl, rfl, .inl rfl, fun hidle => idle_set hidle hslot fun hlive => hlive,
      fun h => h.set hslot rfl ?_ nofun⟩
    intro priority entry hmem hother
    change entry ∈ (s.queues.set slot.priority _).get priority
    by_cases hsame : priority = slot.priority
    · subst hsame
      rw [PerPriority.get_set_self]
      exact mem_filter.mpr ⟨hmem, decide_eq_true (hother _)⟩
    · rw [PerPriority.get_set_of_ne _ _ hsame]
      exact hmem
  · rename_i hent
    have hsame : { slot with queuedEntry := false } = slot := by
      rw [← eq_false_iff.mpr hent]
    rw [hsame, set_getElem?_self hslot]
    exact .refl s

theorem markTerminal_leaves (hst : slot.state ≠ .terminal) (out : RequestOutcome) :
    Leaves s (s.markTerminal i out) (s.slots.set i (slot.terminate out)) := by
  have hremoved := removeQueuedEntry_leaves hslot
  have hslot1 : (s.removeQueuedEntry i).slots[i]? = some { slot with queuedEntry := false } := by
    rw [hremoved.slots]
    exact getElem?_set_self (lt_length hslot)
  unfold markTerminal
  simp only [hslot1, if_neg hst]
  have hset := set_leaves hslot1 (slot.terminate out) nofun nofun
  have hfinal := (hremoved.trans hset).trans (updateShutdownState_leaves _)
  rw [hremoved.slots, set_set] at hfinal
  rw [hremoved.slots, set_set]
  exact hfinal

theorem abortRequest_leaves (hst : slot.state ≠ .terminal) (out : RequestOutcome) :
    Leaves s (s.abortRequest i out) (s.slots.set i (slot.abort out)) := by
  have hlt := lt_length hslot
  let slot1 : RequestSlot := { slot with pendingOutcome := some out }
  have hset := set_leaves hslot slot1 (fun h => h) fun h => ⟨h, rfl, rfl⟩
  have hremoved := removeQueuedEntry_leaves
    (show { s with slots := s.slots.set i slot1 }.slots[i]? = some slot1
      from getElem?_set_self hlt)
  have hleaves := hset.trans hremoved
  have hpend : s.modifySlot i ({ · with pendingOutcome := some out }) =
      { s with slots := s.slots.set i slot1 } := by
    unfold modifySlot
    rw [modify_eq_set hslot]
  unfold abortRequest
  simp only [hpend]
  generalize hs2 : removeQueuedEntry i _ = s2 at hleaves ⊢
  rw [set_set] at hleaves
  have hget : s2.slots[i]? = some { slot1 with queuedEntry := false } := by
    rw [hleaves.slots]
    exact getElem?_set_self hlt
  rw [hget]
  unfold RequestSlot.abort
  simp only [Option.any_some, decide_eq_true_eq]
  split
  · have hmarked := hleaves.trans (markTerminal_leaves hget hst out)
    rw [hleaves.slots, set_set] at hmarked
    exact hmarked
  · exact hleaves

end

theorem failSlot_leaves (device : BlockDeviceId) (outcome : RequestOutcome)
    (hslot : s.slots[i]? = some slot) :
    Leaves s (failSlot device outcome s i) (s.slots.set i
      (if slot.device = device ∧ slot.isLive then slot.fail outcome else slot)) := by
  have hlt := lt_length hslot
  unfold failSlot
  simp only [hslot]
  split
  · rename_i hfails
    let slot1 : RequestSlot := { slot with
      inFlight := 0, pendingOutcome := some (slot.pendingOutcome.getD outcome) }
    have hset := set_leaves hslot slot1 (fun h => h) fun h => ⟨h, rfl, rfl⟩
    have hst : slot1.state ≠ .terminal := RequestSlot.not_terminal_of_isLive hfails.2
    have hmarked := markTerminal_leaves
      (show { s with slots := s.slots.set i slot1 }.slots[i]? = some slot1
        from getElem?_set_self hlt) hst (slot.pendingOutcome.getD outcome)
    have hleaves := hset.trans hmarked
    rw [set_set] at hleaves
    exact hleaves
  · rw [set_getElem?_self hslot]
    exact .refl s

theorem foldl_leaves {σ : Type} (q : σ → AsyncBlockQueue) (step : σ → Nat → σ)
    {f : RequestSlot → RequestSlot} (hstep : ∀ a i slot, (q a).slots[i]? = some slot →
      Leaves (q a) (q (step a i)) ((q a).slots.set i (f slot)))
    (a : σ) {count : Nat} (hcnt : count ≤ (q a).slots.length) :
    Leaves (q a) (q ((range count).foldl step a)) (mapTake f count (q a).slots) := by
  induction count with
  | zero =>
    exact .refl _
  | succ count ih =>
    have ih := ih (Nat.le_of_succ_le hcnt)
    rw [range_succ, foldl_append]
    obtain ⟨slot, hslot⟩ : ∃ slot, (q a).slots[count]? = some slot :=
      ⟨_, getElem?_eq_getElem hcnt⟩
    have hget : (q ((range count).foldl step a)).slots[count]? = some slot := by
      rw [ih.slots, getElem?_mapTake_self]
      exact hslot
    have hleaves := ih.trans (hstep _ count _ hget)
    rw [ih.slots, set_mapTake f hslot] at hleaves
    exact hleaves

theorem failDeviceRequests_leaves (device : BlockDeviceId) (out : RequestOutcome)
    (s : AsyncBlockQueue) :
    Leaves s (s.failDeviceRequests device out) (s.slots.map fun slot =>
      if slot.device = device ∧ slot.isLive then slot.fail out else slot) := by
  have hall := foldl_leaves (fun s => s) (failSlot device out)
    (fun s _ _ hslot => failSlot_leaves device out hslot) s (Nat.le_refl _)
  rw [mapTake_length] at hall
  exact hall

end Ginkgo.Kernel.AsyncBlock.AsyncBlockQueue
