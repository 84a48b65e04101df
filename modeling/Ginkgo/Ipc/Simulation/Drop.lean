import Ginkgo.Ipc.Simulation

/-!
# Dropping references

A drop may close an endpoint, which discards a queue of further references.  Each drop
ends one reference for good, so the loop needs no more rounds than there are references
outside the tables.
-/

namespace Ginkgo.Ipc

open Ginkgo.Lib Ginkgo.Sysapi Ipc.System Multiset

variable {n : Nat} {s : System n} {entry : HandleEntry} {rest : List HandleEntry}

/-- The kinds of moves that closing a handle makes. -/
def dropping : Set Kind := {.release, .service}

theorem release_mem_dropping : Kind.release ∈ dropping := .inl rfl

theorem service_mem_dropping : Kind.service ∈ dropping := .inr rfl

theorem star_closeChannel {c : ChannelId} {side : Side} (hcell : c < s.channels.next)
    (hlast : s.referenced entry.object.id rest = false)
    (hker : entry.object.kernel = .channel c side) :
    Star (Moves dropping) ⟨s, [], entry :: rest, []⟩ []
      ⟨s.closeChannel c side, [], (s.queue c side).flatMap (·.handles) ++ rest, []⟩ := by
  have hclose := Star.single (Moves.release release_mem_dropping
    (.dropChannel c side hcell hlast hker))
  have hnear := hclose.quiet (.service service_mem_dropping .notify)
  exact hnear.quiet (.service service_mem_dropping .notify)

theorem star_closeWindow {w : WindowId} {role : WindowRole} (hcell : w < s.windows.next)
    (hker : entry.object.kernel = .window w role) :
    Star (Moves dropping) ⟨s, [], entry :: rest, []⟩ [] ⟨s.closeWindow w role, [], rest, []⟩ := by
  have hother : ∀ c side, entry.object.kernel ≠ .channel c side := by
    intro c side hchan
    rw [hker] at hchan
    cases hchan
  have hdrop : Star (Moves dropping) ⟨s, [], entry :: rest, []⟩ [] ⟨s, [], rest, []⟩ :=
    .single (.release release_mem_dropping (.drop (.inr hother)))
  have hclose := hdrop.quiet (.service service_mem_dropping (.window w hcell (.close role)))
  have hclient := hclose.quiet (.service service_mem_dropping .notify)
  exact hclient.quiet (.service service_mem_dropping .notify)

theorem Wf.allocated_doomed (hwf : Wf ⟨s, [], entry :: rest, []⟩) :
    entry.object.kernel.Allocated s := by
  apply hwf.allocated entry
  simp [Frame.total]

theorem star_dropEntry (hwf : Wf ⟨s, [], entry :: rest, []⟩) :
    Star (Moves dropping) ⟨s, [], entry :: rest, []⟩ []
      ⟨(s.dropEntry entry rest).1, [], (s.dropEntry entry rest).2, []⟩ := by
  have hcell := hwf.allocated_doomed
  have hdrop hkeep :
      Star (Moves dropping) ⟨s, [], entry :: rest, []⟩ [] ⟨s, [], rest, []⟩ :=
    .single (.release release_mem_dropping (.drop hkeep))
  unfold dropEntry
  split
  · rename_i hreferenced
    exact hdrop (.inl hreferenced)
  rename_i hlast
  simp only [Bool.not_eq_true] at hlast
  split
  · rename_i c side hker
    rw [hker] at hcell
    exact star_closeChannel hcell hlast hker
  · rename_i w role hker
    rw [hker] at hcell
    exact star_closeWindow hcell hker
  · rename_i hchan _
    exact hdrop (.inr hchan)

theorem card_held (s : System n) :
    Multiset.card s.held = ∑ t, (s.tables t).entries.length + s.queuedCount := by
  simp [held, queuedCount]

theorem queuedCount_notifyFacet (s : System n) (facet : WaitFacet) :
    (s.notifyFacet facet).queuedCount = s.queuedCount := by
  have hafter := card_held (s.notifyFacet facet)
  have hbef := card_held s
  rw [held_notifyFacet, tables_notifyFacet] at hafter
  omega

theorem queuedCount_close {c : ChannelId} (side : Side) (hcell : c < s.channels.next) :
    (s.modifyChannel c (·.close side)).queuedCount +
        ((s.queue c side).flatMap (·.handles)).length = s.queuedCount := by
  have htotal : card (Frame.total ⟨s.modifyChannel c (·.close side), [],
      (s.queue c side).flatMap (·.handles) ++ [], []⟩) =
      card (Frame.total ⟨s, [], [], []⟩) := by
    rw [total_dropChannel hcell]
  have hafter := card_held (s.modifyChannel c (·.close side))
  have hbef := card_held s
  simp only [Frame.total, card_add, coe_card, List.append_nil, List.length_nil] at htotal
  have htabs : (s.modifyChannel c (·.close side)).tables = s.tables := rfl
  rw [htabs] at hafter
  omega

theorem dropEntry_lt (rest : List HandleEntry) (hcell : entry.object.kernel.Allocated s) :
    (s.dropEntry entry rest).2.length + (s.dropEntry entry rest).1.queuedCount <
      (entry :: rest).length + s.queuedCount := by
  rw [List.length_cons]
  unfold dropEntry
  split
  · simp only
    omega
  split
  · rename_i c side hker
    rw [hker] at hcell
    have hclose := queuedCount_close side hcell
    simp only [closeChannel, notifyChannelWaiters, queuedCount_notifyFacet, List.length_append]
    unfold queue at hclose
    omega
  · change rest.length + s.queuedCount < _
    omega
  · simp only
    omega

theorem wp_dropLoop {fuel : Nat} {doomed : List HandleEntry} {E : Fault → System n → Prop}
    (hwf : Wf ⟨s, [], doomed, []⟩) (hfuel : doomed.length + s.queuedCount ≤ fuel) :
    wp (dropLoop fuel doomed)
      (fun _ s' => Star (Moves dropping) ⟨s, [], doomed, []⟩ [] s'.frame) E s := by
  induction fuel generalizing s doomed with
  | zero =>
    have hnil : doomed = [] := List.length_eq_zero_iff.mp (by omega)
    subst hnil
    exact wp_pure (.refl _)
  | succ fuel ih =>
    cases doomed with
    | nil => exact wp_pure (.refl _)
    | cons entry rest =>
      have hdrop := star_dropEntry hwf
      have hless := dropEntry_lt rest hwf.allocated_doomed
      apply wp_mono (ih (hwf.star hdrop) (by omega))
      · intro _ s' hstar
        exact hdrop.trans hstar
      · exact fun _ _ hfail => hfail

theorem handleClose_simulated (hwf : Wf s.frame) (t : Fin n) (handle : Handle) :
    Simulated dropping (handleClose t handle) (fun _ _ => [.closed t handle]) s := by
  apply wp_liftExcept_bind (.refl s)
  rintro ⟨i, generation⟩ hvalid
  obtain ⟨hparts, entry, hslot⟩ := HandleTable.validatedSlot_ok.mp hvalid
  simp only [HandleTable.takeEntry_occupied hslot]
  have hclose := Star.single (Moves.release release_mem_dropping (.close t hparts hslot))
  apply wp_mono (wp_dropLoop (hwf.star hclose) le_rfl)
  · intro _ s' hstar
    exact hclose.trans hstar
  · exact fun _ _ hfail => hfail

end Ginkgo.Ipc
