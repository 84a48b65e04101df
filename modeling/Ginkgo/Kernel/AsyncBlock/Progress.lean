import Ginkgo.Kernel.AsyncBlock.Accounts

/-!
# Progress

The earliest live request of a device that has nothing in flight may be dispatched.  The counter
of a device is not behind the commands that were dispatched to it since background work was last
served.
-/

namespace Ginkgo.Kernel.AsyncBlock

open Ginkgo.Lib List

variable {config : QueueConfig} {policy : Policy} {t t' : Table} {history events : List Event}
  {slot : RequestSlot}

/-- Fences that come after the earliest request do not hold it back. -/
theorem Ordered.unfenced_of_lastOf (h : Ordered t history) (hmem : slot ∈ t.slots)
    (hlive : slot.isLive = true) (hlast : t.LastOf slot) : t.Unfenced slot := by
  intro other hother hdev hep _
  refine Bool.eq_false_iff.mpr fun hotherLive => ?_
  obtain ⟨i, hi⟩ := mem_iff_getElem?.mp hmem
  obtain ⟨k, hk⟩ := mem_iff_getElem?.mp hother
  have hplaced := h.placed i slot hi (RequestSlot.held_of_isLive hlive)
  have hotherPlaced := h.placed k other hk (RequestSlot.held_of_isLive hotherLive)
  have hle : slot.sequence ≤ other.sequence := by
    refine Nat.not_lt.mp fun hlt => ?_
    exact absurd (hotherLive.symm.trans (hlast other hother hdev hlt)) (by decide)
  have hfences : fenceCount ((submissionsTo slot.device history).take (slot.sequence - 1)) ≤
      fenceCount ((submissionsTo slot.device history).take (other.sequence - 1)) :=
    (take_sublist_take_left (Nat.sub_le_sub_right hle 1)).countP_le
  have hslotFences := hplaced.fences
  have hotherFences := hotherPlaced.fences
  rw [hdev] at hotherFences
  omega

/-- If nothing of a device is in flight, the earliest of its live requests may be dispatched. -/
theorem Ordered.exists_dispatchable (h : Ordered t history) (hwf : t.Wf config)
    (hmem : slot ∈ t.slots) (hlive : slot.isLive = true)
    (hidle : ∀ other ∈ t.slots, other.device = slot.device → other.isLive = true →
      other.inFlight = 0) :
    ∃ first ∈ t.slots, first.device = slot.device ∧ t.Dispatchable first := by
  -- by induction on the seq number: an earlier live request takes the place of this one
  induction hseq : slot.sequence using Nat.strongRecOn generalizing slot with
  | ind seq ih =>
    by_cases hlast : t.LastOf slot
    · have hok := hwf.slotOk slot hmem
      have hzero := hidle slot hmem rfl hlive
      have hnone : slot.pendingOutcome = none := by
        cases hpend : slot.pendingOutcome with
        | none => rfl
        | some out =>
          have hstays := hok.stays hlive (by rw [hpend]; rfl)
          omega
      have hnext : slot.nextChild < slot.childCount := by
        rcases hok.waits hlive hnone with hout | hnext
        · omega
        · exact hnext
      exact ⟨slot, hmem, rfl, hlive, hnone, hnext, fun _ => hlast,
        fun _ => h.unfenced_of_lastOf hmem hlive hlast⟩
    · unfold Table.LastOf at hlast
      push Not at hlast
      obtain ⟨other, hother, hdev, hlt, hotherLive⟩ := hlast
      obtain ⟨first, hfirst, hfirstDev, hready⟩ := ih other.sequence (hseq ▸ hlt) hother
        (Bool.not_eq_false _ ▸ hotherLive) (hdev ▸ hidle) rfl
      exact ⟨first, hfirst, hfirstDev.trans hdev, hready⟩

/-- A device that counts no command out has none out for a live request. -/
theorem Accounts.slot_inFlight (h : Accounts t history) (hwf : t.Wf config)
    (hchron : Chronicle config t history) (hcurrent : Current t history) (hmem : slot ∈ t.slots)
    (hlive : slot.isLive = true) {index : Nat} {device : DeviceSlot}
    (hpres : t.Present slot.device index device) (hzero : device.inFlight = 0) :
    slot.inFlight = 0 := by
  refine Nat.eq_zero_of_not_pos fun hpos => ?_
  obtain ⟨i, hi⟩ := mem_iff_getElem?.mp hmem
  rw [(hwf.slotOk slot hmem).inFlight hlive, countP_pos_iff] at hpos
  obtain ⟨child, hch, hout⟩ := hpos
  obtain ⟨k, hk⟩ := mem_iff_getElem?.mp hch
  cases child with
  | pending => cases hout
  | done => cases hout
  | inFlight serial notified =>
    have htold := hchron.told i slot hi (RequestSlot.held_of_isLive hlive)
    obtain ⟨command, hcmd, -⟩ := htold.serial k serial notified hk
    have hissued := htold.issued k command hcmd
    have hep := hcurrent i slot hi hlive index device hpres k serial notified hk command hcmd
    have hunreported : command.token ∉ reports history := by
      intro hreport
      have hacc : command.token ∈ accepted (story (.fromParts i slot.generation) history) := by
        refine mem_filterMap.mpr ⟨.completed command.token, mem_filter.mpr
          ⟨mem_reports.mp hreport, decide_eq_true ?_⟩, ?_⟩
        · simp [Event.request, hissued.flush, hissued.requestId]
        · simp [Event.accepted?, hissued.flush]
      have hdone := htold.accepted_done _ hacc
      rw [hissued.childIndex, hk] at hdone
      cases hdone
    have hmem : command.token ∈ outstanding (.fromParts index device.generation) device.epoch
      history := by
      refine mem_filter.mpr ⟨mem_tokens.mpr ⟨command,
        dispatched_of_mem_story (mem_of_getElem? hcmd), rfl⟩, ?_⟩
      simp only [Bool.and_eq_true, decide_eq_true_eq]
      exact ⟨⟨hissued.deviceId.trans hpres.2.2, hep⟩, hunreported⟩
    have hcnt := h.inFlight index device hpres.1 hpres.2.1
    rw [hzero] at hcnt
    rw [eq_nil_of_length_eq_zero hcnt.symm] at hmem
    cases hmem

/-! ## The turn of background work -/

/-- The commands of requests that were dispatched to a device, in order. -/
def commandsTo (id : BlockDeviceId) (history : List Event) : List DispatchCommand :=
  (commands history).filter (·.token.deviceId = id)

/-- How many commands were dispatched to a device since its last one for background work. -/
def streak (id : BlockDeviceId) (history : List Event) : Nat :=
  ((commandsTo id history).reverse.takeWhile (·.priority ≠ .background)).length

theorem commandsTo_append (id : BlockDeviceId) (history events : List Event) :
    commandsTo id (history ++ events) = commandsTo id history ++ commandsTo id events := by
  unfold commandsTo commands
  rw [filterMap_append, filter_append]

theorem commandsTo_eq_nil {id : BlockDeviceId} (h : ∀ token ∈ tokens events, token.deviceId ≠ id) :
    commandsTo id events = [] := by
  refine filter_eq_nil_iff.mpr fun command hmem => ?_
  have hdisp := dispatched_of_mem_commands hmem
  simpa using h command.token (mem_tokens.mpr ⟨command, hdisp, rfl⟩)

theorem streak_append_of_nil {id : BlockDeviceId} (history : List Event)
    (h : commandsTo id events = []) : streak id (history ++ events) = streak id history := by
  unfold streak
  rw [commandsTo_append, h, append_nil]

theorem streak_dispatched {command : DispatchCommand} (history : List Event)
    (hflush : command.token.shutdownFlush = false) :
    streak command.token.deviceId (history ++ [.dispatched command]) =
      if command.priority = .background then 0
      else streak command.token.deviceId history + 1 := by
  have hone : commandsTo command.token.deviceId [.dispatched command] = [command] := by
    simp [commandsTo, commands, Event.command?, hflush]
  unfold streak
  rw [commandsTo_append, hone, reverse_append, reverse_singleton, singleton_append]
  split
  · rename_i hbackground
    rw [takeWhile_cons_of_neg (by simp [hbackground])]
    rfl
  · rename_i hother
    rw [takeWhile_cons_of_pos (by simp [hother])]
    rfl

def Counted (t : Table) (history : List Event) : Prop :=
  ∀ (i : Nat) (device : DeviceSlot), t.devices[i]? = some device → device.present = true →
    min (streak (.fromParts i device.generation) history) u32Max ≤ device.nonBackgroundDispatches

theorem Move.counted (hmove : Move config policy t events t') (hwf : t.Wf config)
    (hknown : Known t history) (h : Counted t history) : Counted t' (history ++ events) := by
  intro i device' hget hpres'
  obtain ⟨device, hdev, hturn⟩ := hmove.turn hwf hget
  -- the device keeps its counter, and no command of a request goes to it
  have hkept : device.present = true → device'.generation = device.generation →
      device'.nonBackgroundDispatches = device.nonBackgroundDispatches →
      commandsTo (.fromParts i device.generation) events = [] →
        min (streak (.fromParts i device'.generation) (history ++ events)) u32Max ≤
          device'.nonBackgroundDispatches := by
    intro hpres hgen hcounter hnone
    rw [hgen, hcounter, streak_append_of_nil history hnone]
    exact h i device hdev hpres
  cases hturn with
  | same hsame htoks =>
    exact hkept (hsame.present.symm.trans hpres') hsame.generation
      hsame.nonBackgroundDispatches (commandsTo_eq_nil htoks)
  | registered habsent hgen =>
    have hzero : streak (.fromParts i device'.generation) history = 0 := by
      unfold streak
      rw [commandsTo_eq_nil (hknown.fresh hdev hgen)]
      rfl
    rw [streak_append_of_nil history rfl, hzero]
    exact Nat.zero_le _
  | @sent command hpres hname _ hflush hsame =>
    have hold := h i device hdev hpres
    have hcounter := hsame.nonBackgroundDispatches
    simp only at hcounter
    have hgen : device'.generation = device.generation := hsame.generation
    rw [hgen, ← hname, streak_dispatched history hflush, hcounter, hname]
    split
    · exact Nat.le_of_eq (Nat.zero_min _)
    · omega
  | flushed hpres _ _ hflush _ _ _ hsame =>
    refine hkept hpres hsame.generation hsame.nonBackgroundDispatches ?_
    simp [commandsTo, commands, Event.command?, hflush]
  | answered hpres _ _ _ hsame | flushAnswered hpres _ _ _ _ _ hsame | begun _ _ hpres _ hsame =>
    exact hkept hpres hsame.generation hsame.nonBackgroundDispatches rfl
  | stopped hpres _ hgen _ _ _ hcounter _ htoks =>
    refine hkept hpres hgen hcounter (commandsTo_eq_nil ?_)
    rw [htoks]
    exact forall_mem_nil _

end Ginkgo.Kernel.AsyncBlock
