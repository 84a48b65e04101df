import Ginkgo.Kernel.AsyncBlock.Settlement
import Ginkgo.Kernel.AsyncBlock.Order

/-!
# Shutdown

A device is flushed at most once, while the queue quiesces.  The queue is drained when no
request is live and no flush is left to come; nothing is in flight then.
-/

namespace Ginkgo.Kernel.AsyncBlock

open Ginkgo.Lib List RequestSlot ChildState DeviceSlot

variable {config : QueueConfig} {policy : Policy} {t t' : Table} {history events : List Event}
  {device device' : DeviceSlot} {id : BlockDeviceId} {token : DispatchToken} {slot : RequestSlot}

/-- Every device that is present was asked for a flush, or needs none. -/
def Table.Asked (t : Table) : Prop :=
  ∀ device ∈ t.devices, device.present = true → device.shutdownFlush ≠ .none

theorem DeviceSlot.owesFlush_of_same (hpres : device'.present = device.present)
    (hflush : device'.shutdownFlush = device.shutdownFlush) :
    device'.owesFlush = device.owesFlush := by
  unfold owesFlush
  rw [hpres, hflush]

theorem Move.shutdown_cases (hmove : Move config policy t events t') :
    t'.shutdown = t.shutdown ∨ t'.shutdown = .quiescing ∧ t'.Asked ∨
      t.shutdown = .quiescing ∧ t'.shutdown = .drained ∧ t'.Idle := by
  cases hmove with
  | tune hdevs hshutdown =>
    rcases hshutdown with hsame | ⟨hqsc, hdrained, hidle⟩
    · exact .inl hsame
    refine .inr (.inr ⟨hqsc, hdrained, hidle.requests, fun device' hmem => ?_⟩)
    obtain ⟨i, hi⟩ := mem_iff_getElem?.mp hmem
    obtain ⟨device, hdev, hsame⟩ := forall₂_getElem?_right hdevs hi
    rw [owesFlush_of_same hsame.present hsame.shutdownFlush]
    exact hidle.flushes device (mem_of_getElem? hdev)
  | begin _ hdevs =>
    refine .inr (.inl ⟨rfl, fun device' hmem hpres => ?_⟩)
    obtain ⟨i, hi⟩ := mem_iff_getElem?.mp hmem
    obtain ⟨device, -, hflush⟩ := forall₂_getElem?_right hdevs hi
    rcases hflush with ⟨rfl, habsent⟩ | ⟨flush, rfl, -, ⟨rfl, -⟩ | rfl⟩
    · rw [habsent] at hpres
      cases hpres
    · exact nofun
    · exact nofun
  | force hfailed =>
    refine .inr (.inl ⟨rfl, fun device hmem hpres => ?_⟩)
    rw [hfailed device hmem hpres]
    exact nofun
  | _ => exact .inl rfl

/-! ## Flushes -/

/-- The flushes that a device was given when the queue was shut down. -/
def flushesTo (id : BlockDeviceId) (history : List Event) : List DispatchToken :=
  (tokens history).filter fun token => token.shutdownFlush && token.deviceId = id

structure Flushing (policy : Policy) (t : Table) (history : List Event) : Prop where
  running : t.shutdown = .running → ∀ token ∈ tokens history, token.shutdownFlush = false
  pending : ∀ (i : Nat) (device : DeviceSlot), t.devices[i]? = some device →
    device.present = true → device.shutdownFlush = .pending →
      flushesTo (.fromParts i device.generation) history = []
  once : ∀ id, (flushesTo id history).length ≤ 1
  able : policy.flushes = true → ∀ device ∈ t.devices, device.present = true →
    device.shutdownFlush = .pending → device.config.supportsFlush = true
  paid : t.shutdown ≠ .quiescing → ∀ device ∈ t.devices, device.owesFlush = false
  asked : t.shutdown = .quiescing → t.Asked
  drained : t.shutdown = .drained → ∀ slot ∈ t.slots, slot.isLive = false

theorem flushesTo_append (id : BlockDeviceId) (history events : List Event) :
    flushesTo id (history ++ events) = flushesTo id history ++ flushesTo id events := by
  unfold flushesTo
  rw [tokens_append, filter_append]

theorem flushesTo_eq_nil : flushesTo id history = [] ↔
      ∀ token ∈ tokens history, token.shutdownFlush = true → token.deviceId ≠ id := by
  unfold flushesTo
  simp only [filter_eq_nil_iff, Bool.and_eq_true, decide_eq_true_eq, not_and]

/-- A flush that is wanted was wanted before, unless the device is new or the shutdown begins. -/
theorem Turn.pending_cases {i : Nat} (h : Turn policy t t' i device device' events)
    (hpres : device'.present = true) (hflush : device'.shutdownFlush = .pending) :
    (device.present = true ∧ device.shutdownFlush = .pending ∧
        device'.generation = device.generation ∧ device'.config = device.config ∧
        flushesTo (.fromParts i device.generation) events = []) ∨
      flushesTo (.fromParts i device'.generation) events = [] ∧
        ((device.everRegistered = false ∧ device'.generation = device.generation ∨
            device'.generation = device.generation + 1) ∧
          (policy.flushes = true → device'.config.supportsFlush = true) ∨
        t.shutdown = .running ∧ device'.config.supportsFlush = true) := by
  cases h with
  | same hsame htoks =>
    exact .inl ⟨hsame.present.symm.trans hpres, hsame.shutdownFlush.symm.trans hflush,
      hsame.generation, hsame.config, flushesTo_eq_nil.mpr fun token hmem _ => htoks token hmem⟩
  | registered _ hgen _ _ _ _ hregd hflushes =>
    refine .inr ⟨rfl, .inl ⟨hgen, fun hpol => hflushes hpol ?_⟩⟩
    rcases hregd with ⟨-, hnone⟩ | ⟨hqsc, -⟩
    · cases hnone.symm.trans hflush
    · exact hqsc
  | sent hthere _ _ hcmd hsame =>
    refine .inl ⟨hthere, hsame.shutdownFlush.symm.trans hflush, hsame.generation, hsame.config, ?_⟩
    simp [flushesTo, tokens_dispatched, hcmd]
  | answered hthere _ _ _ hsame =>
    exact .inl ⟨hthere, hsame.shutdownFlush.symm.trans hflush, hsame.generation, hsame.config, rfl⟩
  | flushed _ _ _ _ _ _ _ hsame => cases hsame.shutdownFlush.symm.trans hflush
  | flushAnswered _ _ _ _ _ hdone hsame =>
    have hpend := hsame.shutdownFlush.symm.trans hflush
    rcases hdone with rfl | rfl <;> cases hpend
  | stopped _ _ _ _ _ _ _ hstopped =>
    rw [hflush] at hstopped
    rcases hstopped with hfailed | ⟨hnone, -⟩
    · cases hfailed
    · cases hnone
  | begun hrun _ _ hbegun hsame =>
    have hpend := hsame.shutdownFlush.symm.trans hflush
    rcases hbegun with ⟨-, hsupports⟩ | rfl
    · exact .inr ⟨rfl, .inr ⟨hrun, hsame.config ▸ hsupports⟩⟩
    · cases hpend

section

variable (hmove : Move config policy t events t') (hwf : t.Wf config)
include hmove hwf

theorem Move.owesFlush (h : Flushing policy t history) (hshutdown : t'.shutdown ≠ .quiescing)
    (hmem : device' ∈ t'.devices) : device'.owesFlush = false := by
  rcases hmove.shutdown_cases with hsame | ⟨hqsc, -⟩ | ⟨-, -, hidle⟩
  · rw [hsame] at hshutdown
    obtain ⟨i, hget⟩ := mem_iff_getElem?.mp hmem
    obtain ⟨device, hdev, hturn⟩ := hmove.turn hwf hget
    have hpaid := h.paid hshutdown device (mem_of_getElem? hdev)
    have hclear : device'.shutdownFlush = .none ∨ device'.shutdownFlush = .done ∨
        device'.shutdownFlush = .failed → device'.owesFlush = false := by
      unfold DeviceSlot.owesFlush
      rintro (hflush | hflush | hflush) <;> rw [hflush, Bool.and_false]
    cases hturn with
    | same hsame =>
      rw [owesFlush_of_same hsame.present hsame.shutdownFlush]
      exact hpaid
    | registered _ _ _ _ _ _ hflush =>
      refine hclear (.inl ?_)
      rcases hflush with ⟨-, hnone⟩ | ⟨hqsc, -⟩
      · exact hnone
      · exact absurd hqsc hshutdown
    | sent _ _ _ _ hsame | answered _ _ _ _ hsame =>
      exact (owesFlush_of_same hsame.present hsame.shutdownFlush).trans hpaid
    | flushed _ _ _ _ hqsc => exact absurd hqsc hshutdown
    | flushAnswered _ _ _ _ _ hdone hsame =>
      exact hclear (.inr (hdone.imp hsame.shutdownFlush.trans hsame.shutdownFlush.trans))
    | stopped _ _ _ _ _ _ _ hstopped =>
      exact hclear (hstopped.elim (fun h => .inr (.inr h)) fun h => .inl h.1)
    | begun _ hqsc =>
      rw [hsame] at hqsc
      exact absurd hqsc hshutdown
  · exact absurd hqsc hshutdown
  · exact hidle.flushes device' hmem

/-- No mark of the shutdown is lost while the queue quiesces. -/
theorem Move.asked (h : t.shutdown ≠ .running → t.Asked)
    (hshutdown : t.shutdown = .quiescing ∨ policy.drains = true)
    (hnot : t'.shutdown ≠ .running) : t'.Asked := by
  have hturned : t.shutdown ≠ .running → t'.Asked := by
    intro hrun device' hmem hpres
    obtain ⟨i, hget⟩ := mem_iff_getElem?.mp hmem
    obtain ⟨device, hdev, hturn⟩ := hmove.turn hwf hget
    have hasked := h hrun device (mem_of_getElem? hdev)
    have hqsc : (policy.drains = true → t.shutdown ≠ .drained) → t.shutdown = .quiescing := by
      intro hdrains
      rcases hshutdown with hqsc | hpol
      · exact hqsc
      have hdrained := hdrains hpol
      cases hst : t.shutdown with
      | running => exact absurd hst hrun
      | quiescing => rfl
      | drained => exact absurd hst hdrained
    cases hturn with
    | same hsame =>
      rw [hsame.shutdownFlush]
      exact hasked (hsame.present.symm.trans hpres)
    | registered _ _ _ _ _ _ hflush _ hdrains =>
      rcases hflush with ⟨hnot, -⟩ | ⟨-, hpend⟩
      · exact absurd (hqsc hdrains) hnot
      · rw [hpend]
        exact nofun
    | sent hold _ _ _ hsame | answered hold _ _ _ hsame =>
      rw [hsame.shutdownFlush]
      exact hasked hold
    | flushed _ _ _ _ _ _ _ hsame =>
      rw [hsame.shutdownFlush]
      exact nofun
    | flushAnswered _ _ _ _ _ hdone hsame =>
      rw [hsame.shutdownFlush]
      rcases hdone with rfl | rfl <;> exact nofun
    | stopped _ _ _ _ _ _ _ hstopped =>
      rcases hstopped with hfailed | ⟨-, hnot, hdrains⟩
      · rw [hfailed]
        exact nofun
      · exact absurd (hqsc hdrains) hnot
    | begun hst => exact absurd hst hrun
  rcases hmove.shutdown_cases with hsame | ⟨-, hasked⟩ | ⟨hqsc, -⟩
  · exact hturned (hsame ▸ hnot)
  · exact hasked
  · exact hturned (by rw [hqsc]; exact nofun)

theorem Move.flushing (hknown : Known t history) (h : Flushing policy t history) :
    Flushing policy t' (history ++ events) := by
  refine ⟨fun hrun token hmem => ?_, fun i device' hget hpres hflush => ?_, fun id => ?_,
    fun hpol device' hmem hpres hflush => ?_, fun hshutdown device' hmem => ?_,
    fun hqsc => ?_, fun hdrained slot' hmem => ?_⟩
  · have hrun : t.shutdown = .running := by
      rcases hmove.shutdown_cases with hsame | ⟨hqsc, -⟩ | ⟨-, hdrained, -⟩
      · exact hsame ▸ hrun
      · rw [hqsc] at hrun
        cases hrun
      · rw [hdrained] at hrun
        cases hrun
    rw [tokens_append] at hmem
    rcases mem_append.mp hmem with hold | hnew
    · exact h.running hrun token hold
    · obtain ⟨_, _, -, -, -, hflush⟩ := hmove.token_cases hnew
      refine Bool.eq_false_iff.mpr fun htrue => ?_
      rw [hrun] at hflush
      cases (hflush htrue).1
  · obtain ⟨device, hdev, hturn⟩ := hmove.turn hwf hget
    rw [flushesTo_append, append_eq_nil_iff]
    rcases hturn.pending_cases hpres hflush with ⟨hthere, hpend, hgen, -, hnone⟩ | ⟨hnone, hnew⟩
    · rw [hgen]
      exact ⟨h.pending i device hdev hthere hpend, hnone⟩
    refine ⟨flushesTo_eq_nil.mpr fun token hmem hflush' => ?_, hnone⟩
    rcases hnew with ⟨hgen, -⟩ | ⟨hrun, -⟩
    · exact hknown.fresh hdev hgen token hmem
    · rw [h.running hrun token hmem] at hflush'
      cases hflush'
  · rw [flushesTo_append, length_append]
    by_cases hnew : flushesTo id events = []
    · rw [hnew]
      exact h.once id
    obtain ⟨token, hmem⟩ := exists_mem_of_ne_nil _ hnew
    obtain ⟨hmem, hflush⟩ := mem_filter.mp hmem
    rw [Bool.and_eq_true, decide_eq_true_eq] at hflush
    obtain ⟨i, device, ⟨hdev, hpres, hname⟩, -, hone, hpend⟩ := hmove.token_cases hmem
    have hbef := h.pending i device hdev hpres (hpend hflush.1).2
    rw [← hname, hflush.2] at hbef
    rw [hbef]
    have hle : (flushesTo id events).length ≤ (tokens events).length := length_filter_le _ _
    rw [hone] at hle
    exact (Nat.zero_add _).symm ▸ hle
  · obtain ⟨i, hget⟩ := mem_iff_getElem?.mp hmem
    obtain ⟨device, hdev, hturn⟩ := hmove.turn hwf hget
    rcases hturn.pending_cases hpres hflush with
      ⟨hthere, hpend, -, hcfg, -⟩ | ⟨-, ⟨-, hable⟩ | ⟨-, hable⟩⟩
    · exact hcfg ▸ h.able hpol device (mem_of_getElem? hdev) hthere hpend
    · exact hable hpol
    · exact hable
  · exact hmove.owesFlush hwf h hshutdown hmem
  · rcases hmove.shutdown_cases with hsame | ⟨-, hasked⟩ | ⟨-, hdrained, -⟩
    · have hbef := hsame.symm.trans hqsc
      exact hmove.asked hwf (fun _ => h.asked hbef) (.inl hbef) (by rw [hqsc]; exact nofun)
    · exact hasked
    · rw [hdrained] at hqsc
      cases hqsc
  · rcases hmove.shutdown_cases with hsame | ⟨hqsc, -⟩ | ⟨-, -, hidle⟩
    · refine Bool.eq_false_iff.mpr fun hlive => ?_
      obtain ⟨i, hget⟩ := mem_iff_getElem?.mp hmem
      rcases hmove.live_cases hwf hget hlive with ⟨slot, hslot, hslotLive, -⟩ | ⟨hrun, -⟩
      · rw [h.drained (hsame.symm.trans hdrained) slot (mem_of_getElem? hslot)] at hslotLive
        cases hslotLive
      · rw [hsame, hrun] at hdrained
        cases hdrained
    · rw [hqsc] at hdrained
      cases hdrained
    · exact hidle.requests slot' hmem

end

/-! ## Commands in flight -/

/-- The commands that a live request has out at a device. -/
def RequestSlot.outAt (id : BlockDeviceId) (slot : RequestSlot) : Nat :=
  if slot.isLive = true ∧ slot.device = id then slot.children.countP ChildState.isInFlight else 0

/-- The commands that live requests have out at a device. -/
def outAt (id : BlockDeviceId) (slots : List RequestSlot) : Nat :=
  (slots.map (RequestSlot.outAt id)).sum

/-- The commands of requests among these that name the device. -/
def requestTokens (id : BlockDeviceId) (tokens : List DispatchToken) : List DispatchToken :=
  tokens.filter fun token => !token.shutdownFlush && token.deviceId = id

def DeviceSlot.flushOut (device : DeviceSlot) : Nat :=
  match device.shutdownFlush with
  | .inFlight _ => 1
  | .none | .pending | .done | .failed => 0

theorem DeviceSlot.flushOut_of_paid (hpres : device.present = true)
    (hpaid : device.owesFlush = false) : device.flushOut = 0 := by
  unfold owesFlush at hpaid
  rw [hpres] at hpaid
  unfold flushOut
  cases hflush : device.shutdownFlush with
  | inFlight serial =>
    rw [hflush] at hpaid
    cases hpaid
  | _ => rfl

/-- A device counts no command that nobody waits for. -/
def Busy (t : Table) : Prop :=
  ∀ (i : Nat) (device : DeviceSlot), t.devices[i]? = some device →
    device.inFlight ≤ if device.present then
      outAt (.fromParts i device.generation) t.slots + device.flushOut else 0

theorem requestTokens_of_ne (h : token.deviceId ≠ id) : requestTokens id [token] = [] := by
  simp [requestTokens, h]

theorem requestTokens_of_eq (h : token.deviceId = id) (hflush : token.shutdownFlush = false) :
    requestTokens id [token] = [token] := by
  simp [requestTokens, h, hflush]

theorem requestTokens_of_flush (hflush : token.shutdownFlush = true) (id : BlockDeviceId) :
    requestTokens id [token] = [] := by
  simp [requestTokens, hflush]

theorem RequestSlot.outAt_of_dead (h : slot.isLive = false) (id : BlockDeviceId) :
    slot.outAt id = 0 :=
  if_neg fun hlive => Bool.false_ne_true (h.symm.trans hlive.1)

theorem RequestSlot.outAt_of_live (h : slot.isLive = true) :
    slot.outAt slot.device = slot.children.countP ChildState.isInFlight :=
  if_pos ⟨h, rfl⟩

theorem RequestSlot.outAt_of_ne (h : slot.device ≠ id) : slot.outAt id = 0 :=
  if_neg fun hlive => h hlive.2

theorem Answered.outAt_le {child serial : Nat} {notified : Bool} {slot' : RequestSlot}
    (h : Answered child slot slot') (hok : SlotOk config slot)
    (hch : slot.children[child]? = some (.inFlight serial notified)) :
    slot.outAt slot.device ≤ slot'.outAt slot.device + 1 := by
  cases hlive : slot.isLive with
  | false =>
    rw [outAt_of_dead hlive]
    exact Nat.zero_le _
  | true =>
    rw [outAt_of_live hlive]
    cases hlive' : slot'.isLive with
    | false =>
      have hlast := h.ends hlive hlive'
      have hcnt := hok.inFlight hlive
      omega
    | true =>
      rw [← h.device, outAt_of_live hlive', h.children]
      have hcnt := countP_set_add (p := isInFlight) hch .done
      exact Nat.le_of_eq hcnt.symm

theorem outAt_set {slots : List RequestSlot} {i : Nat} (hslot : slots[i]? = some slot)
    (slot' : RequestSlot) (id : BlockDeviceId) :
    outAt id (slots.set i slot') + slot.outAt id = outAt id slots + slot'.outAt id :=
  sum_map_set hslot (RequestSlot.outAt id) slot'

theorem Move.outAt_le (hmove : Move config policy t events t') (hwf : t.Wf config)
    (id : BlockDeviceId) :
    outAt id t.slots + (requestTokens id (tokens events)).length ≤
        outAt id t'.slots + (requestTokens id (reports events)).length ∨
      ∃ i device', id = .fromParts i device'.generation ∧ t'.devices[i]? = some device' ∧
        device'.inFlight = 0 := by
  have hkeeps : ∀ {index : Nat} {slot slot' : RequestSlot}, t.slots[index]? = some slot →
      (slot.isLive = true → slot.device = id → slot.outAt id ≤ slot'.outAt id) →
        outAt id t.slots ≤ outAt id (t.slots.set index slot') := by
    intro index slot slot' hslot hle
    have hsum := outAt_set hslot slot' id
    by_cases hout : slot.isLive = true ∧ slot.device = id
    · have := hle hout.1 hout.2
      omega
    · have : slot.outAt id = 0 := if_neg hout
      omega
  cases hmove with
  | submit hslot hstate | take hslot hstate =>
    refine .inl (hkeeps hslot fun hlive => ?_)
    rw [isLive, hstate] at hlive
    cases hlive
  | @dispatch index _ _ _ _ serial slot _ _ _ hslot _ _ _ hdispatchable =>
    refine .inl (Nat.le_add_right_of_le ?_)
    rw [tokens_dispatched]
    have hsum := outAt_set hslot (sentSlot slot serial) id
    have hok := hwf.slotOk slot (mem_of_getElem? hslot)
    have hpend := (hok.started slot.nextChild).mpr
      ⟨Nat.lt_of_lt_of_le hdispatchable.next hok.bounded, Nat.le_refl _⟩
    have hcnt := countP_set_add (p := isInFlight) hpend (.inFlight serial false)
    by_cases hid : slot.device = id
    · subst hid
      have hnew : (sentSlot slot serial).outAt slot.device =
          (slot.children.set slot.nextChild (.inFlight serial false)).countP
            isInFlight := outAt_of_live rfl
      rw [outAt_of_live hdispatchable.live] at hsum
      have hcnt : (slot.children.set slot.nextChild (.inFlight serial false)).countP
          isInFlight = slot.children.countP isInFlight + 1 := hcnt
      refine Nat.le_trans (Nat.add_le_add_left (show _ ≤ 1 from length_filter_le _ _) _) ?_
      change _ ≤ outAt slot.device (t.slots.set index (sentSlot slot serial))
      omega
    · rw [requestTokens_of_ne (by exact hid)]
      exact hkeeps hslot fun _ heq => absurd heq hid
  | flush _ _ _ _ _ _ _ _ _ _ hflush =>
    refine .inl (Nat.le_of_eq ?_)
    rw [tokens_dispatched, requestTokens_of_flush hflush]
    rfl
  | @complete index _ slot _ token _ status hslot hheld _ _ _ _ hslotDev _ hflush hch =>
    refine .inl ?_
    have hanswered := answered_answeredSlot config token.childIndex status hheld
    have hle := hanswered.outAt_le (hwf.slotOk slot (mem_of_getElem? hslot)) hch
    by_cases hid : slot.device = id
    · subst hid
      have hsum := outAt_set hslot (answeredSlot config token.childIndex status slot) slot.device
      rw [reports_completed, requestTokens_of_eq hslotDev.symm hflush]
      change outAt slot.device t.slots ≤ outAt slot.device (t.slots.set index _) + 1
      omega
    · exact Nat.le_add_right_of_le (hkeeps hslot fun _ heq => absurd heq hid)
  | @abort index slot out hslot hlive =>
    refine .inl (hkeeps hslot ?_)
    rintro - rfl
    have hages := ages_abort hlive out
    rw [outAt_of_live hlive]
    cases hlive' : (slot.abort out).isLive with
    | true =>
      rw [← hages.device, outAt_of_live hlive', hages.children]
    | false =>
      have hidle : slot.inFlight = 0 := by
        by_contra hbusy
        unfold RequestSlot.abort at hlive'
        simp only [hbusy] at hlive'
        exact nomatch hlive.symm.trans hlive'
      rw [← (hwf.slotOk slot (mem_of_getElem? hslot)).inFlight hlive, hidle]
      exact Nat.zero_le _
  | @notify index _ slot _ child serial hslot _ _ _ _ hch =>
    refine .inl (hkeeps hslot fun _ _ => Nat.le_of_eq ?_)
    have hcnt := countP_set_add (p := isInFlight) hch (.inFlight serial true)
    exact if_congr Iff.rfl (Nat.add_right_cancel hcnt).symm rfl
  | @advance d device device' out _ hdev _ _ _ hgen _ _ hinFl =>
    by_cases hid : id = .fromParts d device.generation
    · refine .inr ⟨d, device', by rw [hid, hgen], ?_, hinFl⟩
      exact getElem?_set_self (lt_length hdev)
    refine .inl (Nat.le_trans (Nat.le_of_eq ?_) (Nat.le_add_right _ _))
    have hnone : tokens (if device'.epoch = device.epoch then []
        else [Event.advanced (.fromParts d device.generation)]) = [] := by
      split <;> rfl
    rw [hnone]
    change outAt id t.slots = outAt id (t.slots.map _)
    unfold outAt
    rw [map_map]
    refine congrArg sum (map_congr_left fun slot _ => ?_)
    simp only [Function.comp_apply]
    split
    · rename_i hfails
      have hne : slot.device ≠ id := fun h => hid (h.symm.trans hfails.1)
      rw [outAt_of_ne hne, outAt_of_dead rfl]
    · rfl
  | completeFlush => exact .inl (Nat.le_add_right _ _)
  | _ => exact .inl (Nat.le_refl _)

theorem Move.busy (hmove : Move config policy t events t') (hwf : t.Wf config)
    (hpaid : t.shutdown = .running → ∀ device ∈ t.devices, device.owesFlush = false)
    (h : Busy t) : Busy t' := by
  intro i device' hget
  obtain ⟨device, hdev, hturn⟩ := hmove.turn hwf hget
  have hbef := h i device hdev
  rcases hmove.outAt_le hwf (.fromParts i device'.generation) with
    hle | ⟨j, other, hname, hother, hzero⟩
  case inr =>
    have hwf' := hmove.wf hwf
    obtain ⟨rfl, -⟩ := hwf'.device_inj hget hother hname
    cases hget.symm.trans hother
    rw [hzero]
    exact Nat.zero_le _
  have hunnamed : ∀ {generation : Nat} {heard : List DispatchToken}, Unnamed i generation heard →
      requestTokens (.fromParts i generation) heard = [] := by
    intro generation heard hunnamed
    refine filter_eq_nil_iff.mpr fun token hmem => ?_
    simp [hunnamed token hmem]
  have hflushOut : device'.shutdownFlush = device.shutdownFlush →
      device'.flushOut = device.flushOut := by
    intro hsame
    unfold flushOut
    rw [hsame]
  -- a device that is present before and after keeps its name
  have hthere : device.present = true → device'.present = true →
      device'.generation = device.generation →
      device'.inFlight + (requestTokens (.fromParts i device.generation) (reports events)).length +
          device.flushOut ≤ device.inFlight +
            (requestTokens (.fromParts i device.generation) (tokens events)).length +
              device'.flushOut ∨ device'.inFlight = 0 → device'.inFlight ≤ if device'.present then
        outAt (.fromParts i device'.generation) t'.slots + device'.flushOut else 0 := by
    intro hpres hpres' hgen hcnt
    rw [hgen] at hle ⊢
    rw [if_pos hpres] at hbef
    rw [if_pos hpres']
    omega
  cases hturn with
  | same hsame htoks hreports =>
    rw [hsame.generation] at hle ⊢
    rw [hunnamed htoks, hunnamed hreports] at hle
    rw [hsame.inFlight, hsame.present, hflushOut hsame.shutdownFlush]
    refine Nat.le_trans hbef ?_
    split
    · exact Nat.add_le_add_right hle _
    · exact Nat.le_refl _
  | registered _ _ _ _ _ hinFl | stopped _ _ _ _ _ hinFl =>
    rw [hinFl]
    exact Nat.zero_le _
  | @sent command hpres hname _ hflush hsame =>
    refine hthere hpres (hsame.present.trans hpres) hsame.generation (.inl ?_)
    rw [hsame.inFlight, hflushOut hsame.shutdownFlush, tokens_dispatched,
      requestTokens_of_eq hname hflush]
    exact Nat.le_refl _
  | @flushed command hpres _ _ hflush _ hpend hidle hsame =>
    refine hthere hpres (hsame.present.trans hpres) hsame.generation (.inl ?_)
    have hout : device.flushOut = 0 := by
      unfold flushOut
      rw [hpend]
    have hout' : device'.flushOut = 1 := by
      unfold flushOut
      rw [hsame.shutdownFlush]
    rw [hsame.inFlight, tokens_dispatched, requestTokens_of_flush hflush, hout, hout', hidle]
    exact Nat.le_refl 1
  | @answered token hpres hname _ hflush hsame =>
    refine hthere hpres (hsame.present.trans hpres) hsame.generation ?_
    rw [hsame.inFlight, hflushOut hsame.shutdownFlush, reports_completed,
      requestTokens_of_eq hname hflush]
    change device.inFlight - 1 + 1 + device.flushOut ≤ device.inFlight + 0 + device.flushOut ∨
      device.inFlight - 1 = 0
    omega
  | @flushAnswered token flush hpres _ _ hflush hinFl _ hsame =>
    refine hthere hpres (hsame.present.trans hpres) hsame.generation ?_
    have hout : device.flushOut = 1 := by
      unfold flushOut
      rw [hinFl]
    rw [hsame.inFlight, reports_completed, requestTokens_of_flush hflush, hout]
    change device.inFlight - 1 + 0 + 1 ≤ device.inFlight + 0 + device'.flushOut ∨
      device.inFlight - 1 = 0
    omega
  | begun hrun _ hpres _ hsame =>
    refine hthere hpres (hsame.present.trans hpres) hsame.generation (.inl ?_)
    have hout := flushOut_of_paid hpres (hpaid hrun device (mem_of_getElem? hdev))
    rw [hsame.inFlight, hout]
    exact Nat.le_add_right _ _

/-- When the queue is idle no device has a command out. -/
theorem Busy.inFlight_of_idle (h : Busy t) (hidle : t.Idle) (hmem : device ∈ t.devices) :
    device.inFlight = 0 := by
  obtain ⟨i, hdev⟩ := mem_iff_getElem?.mp hmem
  have hle := h i device hdev
  split at hle
  · rename_i hpres
    have hout : outAt (.fromParts i device.generation) t.slots = 0 := by
      unfold outAt
      rw [map_congr_left fun slot hslot =>
        outAt_of_dead (hidle.requests slot hslot) (.fromParts i device.generation)]
      simp
    have hflush := flushOut_of_paid hpres (hidle.flushes device hmem)
    omega
  · omega

end Ginkgo.Kernel.AsyncBlock
