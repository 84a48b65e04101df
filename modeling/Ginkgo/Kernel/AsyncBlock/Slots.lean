import Ginkgo.Kernel.AsyncBlock.Table

/-!
# Slots

What holds of every slot by itself: how its children, counts and outcomes fit together.
-/

namespace Ginkgo.Kernel.AsyncBlock

open Ginkgo.Lib List Option RequestSlot ChildState

variable {child serial : Nat} {notified : Bool}

theorem checkedSuccU32_some {value value' : Nat} (h : checkedSuccU32 value = some value') :
    value' = value + 1 ∧ value' ≤ u32Max := by
  unfold checkedSuccU32 at h
  split at h
  · cases h
    exact ⟨rfl, by assumption⟩
  · cases h

def ChildState.isInFlight : ChildState → Bool
  | inFlight _ _ => true
  | pending | done => false

namespace RequestSlot

/-- The bytes of the children that are done. -/
def doneBytes (config : QueueConfig) (slot : RequestSlot) : Nat :=
  ((range slot.nextChild).map fun k =>
    if slot.children[k]? = some .done then slot.childLen config k else 0).sum

end RequestSlot

/-- What holds while a completion is being filed, too. -/
structure SlotCore (config : QueueConfig) (slot : RequestSlot) : Prop where
  size : slot.children.length = maxChildren
  started : ∀ k, slot.children[k]? = some .pending ↔ k < maxChildren ∧ slot.nextChild ≤ k
  range : slot.nextChild ≤ slot.childCount
  bounded : slot.childCount ≤ maxChildren
  shaped : slot.isHeld = true → Shaped config slot.spec slot.childCount
  inFlight : slot.isLive = true → slot.inFlight = slot.children.countP ChildState.isInFlight
  entry : slot.queuedEntry = true ↔
    slot.isLive = true ∧ slot.pendingOutcome = none ∧ slot.nextChild < slot.childCount
  outcome : slot.state = .terminal → slot.terminalOutcome.isSome = true
  failed : slot.pendingOutcome ≠ some .success
  success : slot.state = .terminal → slot.terminalOutcome = some .success →
    slot.pendingOutcome = none ∧ slot.nextChild = slot.childCount ∧
      slot.children.countP ChildState.isInFlight = 0
  bytes : slot.pendingOutcome = none → slot.bytesCompleted = slot.doneBytes config
  blank : slot.isHeld = false → slot.nextChild = 0

structure SlotOk (config : QueueConfig) (slot : RequestSlot) : Prop
    extends SlotCore config slot where
  waits : slot.isLive = true → slot.pendingOutcome = none →
    0 < slot.inFlight ∨ slot.nextChild < slot.childCount
  stays : slot.isLive = true → slot.pendingOutcome.isSome = true → 0 < slot.inFlight

variable {config : QueueConfig} {slot : RequestSlot} {slot' : RequestSlot} {out : RequestOutcome}

theorem RequestSlot.held_of_isLive (h : slot.isLive = true) : slot.isHeld = true := by
  unfold isLive at h
  unfold isHeld
  cases hst : slot.state <;> simp [hst] at h ⊢

theorem RequestSlot.not_terminal_of_isLive (h : slot.isLive = true) : slot.state ≠ .terminal := by
  unfold isLive at h
  rintro hst
  simp [hst] at h

theorem RequestSlot.not_free_of_isHeld (h : slot.isHeld = true) : slot.state ≠ .free := by
  unfold isHeld at h
  rintro hst
  simp [hst] at h

theorem RequestSlot.of_terminal (h : slot.state = .terminal) :
    slot.isHeld = true ∧ slot.isLive = false := by
  unfold isHeld isLive
  rw [h]
  exact ⟨rfl, rfl⟩

theorem slotOk_of_blank (hchs : slot.children = replicate maxChildren .pending)
    (hnext : slot.nextChild = 0) (hbnd : slot.childCount ≤ maxChildren)
    (hshaped : slot.isHeld = true → Shaped config slot.spec slot.childCount)
    (hinFl : slot.inFlight = 0) (hpos : slot.isLive = true → 0 < slot.childCount)
    (hent : slot.queuedEntry = slot.isLive) (hpend : slot.pendingOutcome = none)
    (hst : slot.state ≠ .terminal) (hbytes : slot.bytesCompleted = 0) : SlotOk config slot := by
  refine ⟨⟨?_, fun k => ?_, ?_, hbnd, hshaped, fun _ => ?_, ?_, fun h => absurd h hst, ?_,
    fun h => absurd h hst, fun _ => ?_, fun _ => hnext⟩, fun hlive _ => ?_, fun _ hsome => ?_⟩
  · rw [hchs, length_replicate]
  · rw [hchs, getElem?_replicate, hnext]
    simp
  · rw [hnext]
    exact Nat.zero_le _
  · rw [hinFl, hchs]
    rfl
  · rw [hent, hnext]
    exact ⟨fun hlive => ⟨hlive, hpend, hpos hlive⟩, fun h => h.1⟩
  · rw [hpend]
    exact nofun
  · rw [hbytes, doneBytes, hnext]
    rfl
  · rw [hnext]
    exact .inr (hpos hlive)
  · rw [hpend] at hsome
    cases hsome

theorem slotOk_vacant (config : QueueConfig) (generation : Nat) :
    SlotOk config (.vacant generation) :=
  slotOk_of_blank rfl rfl (Nat.zero_le _) nofun rfl nofun rfl rfl nofun rfl

theorem slotOk_takenSlot (config : QueueConfig) (slot : RequestSlot) :
    SlotOk config (takenSlot slot) := by
  unfold takenSlot
  split
  · exact slotOk_vacant config _
  · exact slotOk_of_blank rfl rfl (Nat.zero_le _) nofun rfl nofun rfl rfl nofun rfl

theorem SlotCore.terminate (h : SlotCore config slot) (hheld : slot.isHeld = true)
    (out : RequestOutcome) (hout : out = .success → slot.pendingOutcome = none ∧
      slot.nextChild = slot.childCount ∧ slot.children.countP ChildState.isInFlight = 0) :
    SlotOk config (slot.terminate out) :=
  { h with
    shaped := fun _ => h.shaped hheld
    inFlight := nofun
    entry := ⟨nofun, fun hlive => nomatch hlive.1⟩
    outcome := fun _ => rfl
    success := fun _ hsucc => hout (some.inj hsucc)
    blank := nofun
    waits := nofun
    stays := nofun }

theorem SlotCore.failed_getD (h : SlotCore config slot)
    (hout : out ≠ .success) : some (slot.pendingOutcome.getD out) ≠ some .success := by
  intro heq
  cases hpend : slot.pendingOutcome with
  | none =>
    rw [hpend] at heq
    exact hout (some.inj heq)
  | some pending =>
    rw [hpend] at heq
    exact h.failed (hpend.trans heq)

section

variable (h : SlotOk config slot)
include h

theorem SlotOk.abort (hlive : slot.isLive = true)
    (hout : out ≠ .success) : SlotOk config (slot.abort out) := by
  have hdoomed : SlotCore config { slot with pendingOutcome := some out, queuedEntry := false } :=
    { h with
      entry := ⟨nofun, fun h => nomatch h.2.1⟩
      failed := fun heq => hout (some.inj heq)
      success := fun hterm => absurd hterm (not_terminal_of_isLive hlive)
      bytes := nofun }
  unfold RequestSlot.abort
  simp only
  split
  · exact hdoomed.terminate (held_of_isLive hlive) out fun heq => absurd heq hout
  · rename_i hbusy
    exact { hdoomed with waits := nofun, stays := fun _ _ => Nat.pos_of_ne_zero hbusy }

theorem SlotOk.fail (hlive : slot.isLive = true)
    (hout : out ≠ .success) : SlotOk config (slot.fail out) :=
  { h with
    shaped := fun _ => h.shaped (held_of_isLive hlive)
    inFlight := nofun
    entry := ⟨nofun, fun h => nomatch h.1⟩
    outcome := fun _ => rfl
    failed := h.failed_getD hout
    success := fun _ hsucc => absurd hsucc (h.failed_getD hout)
    bytes := nofun
    blank := nofun
    waits := nofun
    stays := nofun }

omit h in
theorem doneBytes_congr {slot : RequestSlot} (hbuf : slot'.buffer = slot.buffer)
    (hnext : slot'.nextChild = slot.nextChild)
    (hdone : ∀ k < slot.nextChild,
      slot'.children[k]? = some .done ↔ slot.children[k]? = some .done) :
    slot'.doneBytes config = slot.doneBytes config := by
  unfold doneBytes childLen
  rw [hnext, hbuf]
  refine congrArg sum (map_congr_left fun k hk => ?_)
  simp only [hdone k (mem_range.mp hk)]

theorem SlotOk.notify {notified' : Bool}
    (hch : slot.children[child]? = some (.inFlight serial notified)) :
    SlotOk config
      { slot with children := slot.children.set child (.inFlight serial notified') } := by
  have hcnt := countP_set_add (p := isInFlight) hch (.inFlight serial notified')
  have hcnt : (slot.children.set child (.inFlight serial notified')).countP
      isInFlight = slot.children.countP isInFlight :=
    Nat.add_right_cancel hcnt
  exact { h with
    size := length_set.trans h.size
    started := fun k =>
      (getElem?_set_other hch (.inFlight _ _) .pending nofun nofun k).trans (h.started k)
    inFlight := fun hlive => (h.inFlight hlive).trans hcnt.symm
    success := fun hterm hsucc => (h.success hterm hsucc).imp_right (.imp_right hcnt.trans)
    bytes := fun hnone => (h.bytes hnone).trans (Eq.symm (doneBytes_congr rfl rfl fun k _ =>
      getElem?_set_other hch (.inFlight _ _) .done nofun nofun k)) }

theorem SlotOk.sent (hlive : slot.isLive = true)
    (hnone : slot.pendingOutcome = none) (hnext : slot.nextChild < slot.childCount) (serial : Nat) :
    SlotOk config (sentSlot slot serial) := by
  have hlt : slot.nextChild < maxChildren := Nat.lt_of_lt_of_le hnext h.bounded
  have hch := (h.started slot.nextChild).mpr ⟨hlt, Nat.le_refl _⟩
  have hset := getElem?_set_iff hch (inFlight serial false)
  have hcnt := countP_set_add (p := isInFlight) hch (.inFlight serial false)
  refine ⟨⟨length_set.trans h.size, fun k => ?_, hnext, h.bounded,
    fun _ => h.shaped (held_of_isLive hlive), fun _ => ?_, ?_, nofun, h.failed, nofun,
    fun _ => ?_, nofun⟩, fun _ _ => .inl (Nat.succ_pos _), fun _ _ => Nat.succ_pos _⟩
  · refine (hset k _).trans ⟨?_, fun hk => .inr ⟨?_, ?_⟩⟩
    · rintro (⟨-, heq⟩ | ⟨hne, hk⟩)
      · cases heq
      · obtain ⟨hlt', hle⟩ := (h.started k).mp hk
        exact ⟨hlt', Nat.lt_of_le_of_ne hle (Ne.symm hne)⟩
    · rintro rfl
      exact absurd hk.2 (Nat.not_succ_le_self _)
    · exact (h.started k).mpr ⟨hk.1, Nat.le_of_succ_le hk.2⟩
  · exact (congrArg (· + 1) (h.inFlight hlive)).trans hcnt.symm
  · refine ⟨fun hent => ⟨rfl, hnone, of_decide_eq_true hent⟩, fun hent => ?_⟩
    exact decide_eq_true hent.2.2
  · refine (h.bytes hnone).trans ?_
    change _ = ((range (slot.nextChild + 1)).map _).sum
    rw [range_succ, map_append, sum_append]
    have hlast : ¬(slot.children.set slot.nextChild (.inFlight serial false))[slot.nextChild]? =
        some .done := by
      rw [hset]
      rintro (⟨-, heq⟩ | ⟨hne, -⟩)
      · cases heq
      · exact hne rfl
    change _ = _ + if (slot.children.set slot.nextChild (.inFlight serial false))[slot.nextChild]? =
      some .done then _ else 0
    rw [if_neg hlast]
    refine congrArg sum (map_congr_left fun k hk => ?_)
    have hk := mem_range.mp hk
    have hsame : (slot.children.set slot.nextChild (.inFlight serial false))[k]? =
        slot.children[k]? := getElem?_set_ne (by omega)
    change _ = if (slot.children.set slot.nextChild (.inFlight serial false))[k]? =
      some .done then _
      else 0
    rw [hsame]
    rfl

end

/-! ## Completion -/

/-- The children take the transfer apart in equal pieces but for the last. -/
theorem sum_childLen (childBytes byteLen count : Nat) :
    ((range count).map fun k => min childBytes (byteLen - k * childBytes)).sum =
      min byteLen (count * childBytes) := by
  induction count with
  | zero => simp
  | succ count ih =>
    simp only [range_succ, map_append, sum_append, map_cons, map_nil,
      sum_singleton, Nat.succ_mul]
    omega

theorem sum_slot_childLen_le (config : QueueConfig) (slot : RequestSlot) (count : Nat) :
    ((range count).map (slot.childLen config)).sum ≤ u32Max := by
  unfold childLen
  cases slot.buffer with
  | none => simp
  | some buffer =>
    have hsum := sum_childLen config.childBytes buffer.byteLen count
    have hbnd := buffer.bounded
    simp only at hsum ⊢
    omega

section

variable (h : SlotOk config slot) (hch : slot.children[child]? = some (.inFlight serial notified))
include h hch

theorem SlotOk.child_lt : child < slot.nextChild := by
  have hlt := lt_length hch
  rw [h.size] at hlt
  by_contra hge
  have hpend := (h.started child).mpr ⟨hlt, Nat.not_lt.mp hge⟩
  exact nomatch hch.symm.trans hpend

omit hch in
theorem SlotOk.done_of_idle
    (hidle : slot.children.countP ChildState.isInFlight = 0) {k : Nat} (hk : k < slot.nextChild) :
    slot.children[k]? = some .done := by
  have hlt : k < slot.children.length := by
    rw [h.size]
    exact Nat.lt_of_lt_of_le hk (Nat.le_trans h.range h.bounded)
  have hget := getElem?_eq_getElem hlt
  cases hch : slot.children[k] with
  | pending =>
    rw [hch] at hget
    exact absurd ((h.started k).mp hget).2 (Nat.not_le.mpr hk)
  | inFlight serial notified =>
    have hnone := countP_eq_zero.mp hidle _ (getElem_mem hlt)
    rw [hch] at hnone
    exact absurd rfl hnone
  | done => rw [hget, hch]

theorem doneBytes_done (slot' : RequestSlot)
    (hbuf : slot'.buffer = slot.buffer) (hnext : slot'.nextChild = slot.nextChild)
    (hchs : slot'.children = slot.children.set child .done) :
    slot'.doneBytes config = slot.doneBytes config + slot.childLen config child := by
  have hlen : slot'.childLen config = slot.childLen config := by
    unfold childLen
    rw [hbuf]
  have hlt := lt_length hch
  have hsum := sum_map_range_of_ne
    (g := fun k => if (slot.children.set child .done)[k]? = some .done then slot.childLen config k
      else 0) (h.child_lt hch) fun k hne => by rw [getElem?_set_ne (Ne.symm hne)]
  simp only [getElem?_set_self hlt, hch] at hsum
  unfold doneBytes
  rw [hlen, hnext, hchs]
  exact hsum

theorem SlotOk.doneBytes_le : slot.doneBytes config + slot.childLen config child ≤ u32Max := by
  rw [← doneBytes_done h hch { slot with children := slot.children.set child .done } rfl rfl rfl]
  refine Nat.le_trans (sum_le_sum fun k _ => ?_)
    (sum_slot_childLen_le config slot slot.nextChild)
  change (if _ then slot.childLen config k else 0) ≤ slot.childLen config k
  split
  · exact Nat.le_refl _
  · exact Nat.zero_le _

end

theorem SlotCore.finish {slot : RequestSlot} (h : SlotCore config slot)
    (hheld : slot.isHeld = true) :
    SlotOk config slot.finish := by
  unfold RequestSlot.finish
  split
  · rename_i hfinished
    obtain ⟨hst, hzero, hlast⟩ := hfinished
    have hlive : slot.isLive = true := by
      unfold isHeld at hheld
      unfold isLive
      cases hs : slot.state <;> simp [hs] at hheld hst ⊢
    refine h.terminate hheld _ fun hsucc => ?_
    cases hpend : slot.pendingOutcome with
    | some out =>
      rw [hpend] at hsucc
      exact absurd (hpend.trans (congrArg some hsucc)) h.failed
    | none =>
      rw [hpend] at hlast
      exact ⟨rfl, hlast.resolve_left nofun, (h.inFlight hlive).symm.trans hzero⟩
  · rename_i hunfinished
    refine ⟨h, fun hlive hnone => ?_, fun hlive hsome => ?_⟩
    · have hst := not_terminal_of_isLive hlive
      by_cases hzero : slot.inFlight = 0
      · refine .inr (Nat.lt_of_le_of_ne h.range fun heq => ?_)
        exact hunfinished ⟨hst, hzero, .inr heq⟩
      · exact .inl (Nat.pos_of_ne_zero hzero)
    · have hst := not_terminal_of_isLive hlive
      exact Nat.pos_of_ne_zero fun hzero => hunfinished ⟨hst, hzero, .inl hsome⟩

theorem SlotOk.answered (h : SlotOk config slot) (hheld : slot.isHeld = true)
    (hch : slot.children[child]? = some (.inFlight serial notified)) (status : HardwareStatus) :
    SlotOk config (answeredSlot config child status slot) := by
  have hcnt := countP_set_add (p := isInFlight) hch .done
  have hcnt : (slot.children.set child .done).countP isInFlight + 1 =
      slot.children.countP isInFlight := hcnt
  have hstarted : ∀ k, (slot.children.set child .done)[k]? = some .pending ↔
      k < maxChildren ∧ slot.nextChild ≤ k := fun k =>
    (getElem?_set_other hch .done .pending nofun nofun k).trans (h.started k)
  have hnotSucc : ¬(slot.state = .terminal ∧ slot.terminalOutcome = some .success) := by
    rintro ⟨hterm, hsucc⟩
    obtain ⟨-, -, hzero⟩ := h.success hterm hsucc
    omega
  have hinFl : slot.isLive = true → slot.inFlight - 1 =
      (slot.children.set child .done).countP isInFlight := by
    intro hlive
    have hold := h.inFlight hlive
    omega
  refine SlotCore.finish ?_ ?_
  · -- a failed command dooms the request
    have hdoomed : ∀ {out : RequestOutcome}, out ≠ .success → SlotCore config { slot with
        children := slot.children.set child .done
        inFlight := slot.inFlight - 1
        pendingOutcome := some (slot.pendingOutcome.getD out)
        queuedEntry := slot.queuedEntry && false } := fun hout =>
      { h with
        size := length_set.trans h.size
        started := hstarted
        inFlight := hinFl
        entry := ⟨fun hent => (nomatch (Bool.and_eq_true_iff.mp hent).2), fun h => nomatch h.2.1⟩
        failed := h.failed_getD hout
        success := fun hterm hsucc => absurd ⟨hterm, hsucc⟩ hnotSucc
        bytes := nofun }
    cases status with
    | success =>
      refine { h with
        size := length_set.trans h.size
        started := hstarted
        inFlight := hinFl
        entry := ?_
        success := fun hterm hsucc => absurd ⟨hterm, hsucc⟩ hnotSucc
        bytes := fun hnone => ?_ }
      · refine Bool.and_eq_true_iff.trans ⟨fun hent => h.entry.mp hent.1, fun hent => ?_⟩
        exact ⟨h.entry.mpr hent, isNone_iff_eq_none.mpr hent.2.1⟩
      have hle := h.doneBytes_le hch
      generalize hslot' : ({ AsyncBlockQueue.completedSlot config child .success slot with
        queuedEntry := _ } : RequestSlot) = slot'
      have hbytes : slot'.bytesCompleted =
          min (slot.bytesCompleted + slot.childLen config child) u32Max := by
        rw [← hslot']
        rfl
      rw [doneBytes_done h hch slot' (by rw [← hslot']; rfl) (by rw [← hslot']; rfl)
        (by rw [← hslot']; rfl), hbytes, h.bytes hnone, Nat.min_eq_left hle]
    | ioError | unsupported => exact hdoomed nofun
  · cases status <;> exact hheld

/-! ## What stays the same -/

/-- The slots hold the same request, with the same commands sent. -/
structure Kin (slot slot' : RequestSlot) : Prop where
  generation : slot'.generation = slot.generation
  spec : slot'.spec = slot.spec
  sequence : slot'.sequence = slot.sequence
  orderingEpoch : slot'.orderingEpoch = slot.orderingEpoch
  childCount : slot'.childCount = slot.childCount
  nextChild : slot'.nextChild = slot.nextChild

theorem Kin.device (h : Kin slot slot') : slot'.device = slot.device :=
  congrArg RequestSpec.device h.spec

theorem Kin.operation (h : Kin slot slot') : slot'.operation = slot.operation :=
  congrArg RequestSpec.operation h.spec

theorem Kin.refl (slot : RequestSlot) : Kin slot slot := ⟨rfl, rfl, rfl, rfl, rfl, rfl⟩

/-- The slots hold the same request. -/
structure SameRequest (slot slot' : RequestSlot) : Prop where
  generation : slot'.generation = slot.generation
  spec : slot'.spec = slot.spec
  sequence : slot'.sequence = slot.sequence
  orderingEpoch : slot'.orderingEpoch = slot.orderingEpoch

theorem SameRequest.refl (slot : RequestSlot) : SameRequest slot slot := ⟨rfl, rfl, rfl, rfl⟩

theorem SameRequest.device (h : SameRequest slot slot') : slot'.device = slot.device :=
  congrArg RequestSpec.device h.spec

theorem SameRequest.operation (h : SameRequest slot slot') : slot'.operation = slot.operation :=
  congrArg RequestSpec.operation h.spec

theorem Kin.sameRequest (h : Kin slot slot') : SameRequest slot slot' := { h with }

/-- The request goes on with the same commands out, or it has ended. -/
structure Ages (slot slot' : RequestSlot) : Prop extends Kin slot slot' where
  children : slot'.children = slot.children
  held : slot'.isHeld = slot.isHeld
  free : slot'.state = .free → slot.state = .free
  live : slot'.isLive = true → slot.isLive = true
  bytes : slot'.bytesCompleted = slot.bytesCompleted

theorem Ages.refl (slot : RequestSlot) : Ages slot slot :=
  ⟨.refl slot, rfl, rfl, fun h => h, fun h => h, rfl⟩

theorem ages_abort (h : slot.isLive = true) (out : RequestOutcome) :
    Ages slot (slot.abort out) := by
  unfold abort
  simp only
  split
  · exact ⟨⟨rfl, rfl, rfl, rfl, rfl, rfl⟩, rfl, (held_of_isLive h).symm, nofun, nofun,
      rfl⟩
  · exact ⟨⟨rfl, rfl, rfl, rfl, rfl, rfl⟩, rfl, rfl, fun h => h, fun h => h, rfl⟩

theorem ages_fail (h : slot.isLive = true) (out : RequestOutcome) : Ages slot (slot.fail out) :=
  ⟨⟨rfl, rfl, rfl, rfl, rfl, rfl⟩, rfl, (held_of_isLive h).symm, nofun, nofun, rfl⟩

/-- A command of the slot was completed. -/
structure Answered (child : Nat) (slot slot' : RequestSlot) : Prop extends Kin slot slot' where
  children : slot'.children = slot.children.set child .done
  held : slot'.isHeld = slot.isHeld
  live : slot'.isLive = true → slot.isLive = true
  ends : slot.isLive = true → slot'.isLive = false → slot.inFlight - 1 = 0

theorem answered_finish (hkin : Kin slot slot')
    (hchs : slot'.children = slot.children.set child .done) (hst : slot'.state = slot.state)
    (hinFl : slot'.inFlight = slot.inFlight - 1) (hheld : slot.isHeld = true) :
    Answered child slot slot'.finish := by
  have hlive : slot'.isLive = slot.isLive := by
    unfold isLive
    rw [hst]
  unfold finish
  split
  · rename_i hfinished
    exact { hkin with
      children := hchs
      held := hheld.symm
      live := nofun
      ends := fun _ _ => hinFl.symm.trans hfinished.2.1 }
  · refine ⟨hkin, hchs, ?_, fun h => hlive.symm.trans h, fun h h' => ?_⟩
    · unfold isHeld
      rw [hst]
    · rw [hlive, h] at h'
      cases h'

theorem answered_answeredSlot (config : QueueConfig) (child : Nat) (status : HardwareStatus)
    (hheld : slot.isHeld = true) : Answered child slot (answeredSlot config child status slot) := by
  refine answered_finish ?_ ?_ ?_ ?_ hheld
  all_goals cases status
  all_goals first | rfl | exact ⟨rfl, rfl, rfl, rfl, rfl, rfl⟩

end Ginkgo.Kernel.AsyncBlock
