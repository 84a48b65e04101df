import Ginkgo.Kernel.AsyncBlock.Shutdown

/-!
# Accounts

Every device knows how many of its commands are out: those of its epoch that were dispatched
and not yet reported complete.  This needs a driver that reports only what it was given.
-/

namespace Ginkgo.Kernel.AsyncBlock

open Ginkgo.Lib List

variable {config : QueueConfig} {policy : Policy} {t t' : Table} {history events : List Event}
  {token : DispatchToken}

/-- The commands of an epoch that are still out. -/
def outstanding (id : BlockDeviceId) (epoch : Nat) (history : List Event) : List DispatchToken :=
  (tokens history).filter fun token =>
    token.deviceId = id && token.deviceEpoch = epoch && decide (token ∉ reports history)

structure Accounts (t : Table) (history : List Event) : Prop where
  tokens_nodup : (tokens history).Nodup
  reports_nodup : (reports history).Nodup
  flushing : ∀ (i : Nat) (device : DeviceSlot) (serial : Nat), t.devices[i]? = some device →
    device.present = true → device.shutdownFlush = .inFlight serial →
      ∀ token ∈ reports history, token.shutdownFlush = true →
        token.deviceId ≠ .fromParts i device.generation
  inFlight : ∀ (i : Nat) (device : DeviceSlot), t.devices[i]? = some device →
    device.present = true → device.inFlight =
      (outstanding (.fromParts i device.generation) device.epoch history).length

theorem Honest.reports_sub (h : Honest history) (hmem : token ∈ reports history) :
    token ∈ tokens history := by
  obtain ⟨before, after, rfl⟩ := append_of_mem (mem_reports.mp hmem)
  obtain ⟨command, hcmd, htok⟩ := h before token after rfl
  exact mem_tokens.mpr ⟨command, mem_append_left _ hcmd, htok⟩

theorem Honest.report_known (h : Honest (history ++ [.completed token])) :
    token ∈ tokens history := by
  obtain ⟨command, hcmd, htok⟩ := h history token [] rfl
  exact mem_tokens.mpr ⟨command, hcmd, htok⟩

section

variable (hmove : Move config policy t events t')
include hmove

theorem Move.token_fresh
    (hchron : Chronicle config t history) (hflushing : Flushing policy t history)
    (hmem : token ∈ tokens events) : token ∉ tokens history := by
  intro hold
  cases hmove with
  | @dispatch i _ _ _ _ _ slot _ _ _ hslot _ _ _ hdispatchable =>
    obtain rfl := mem_singleton.mp hmem
    obtain ⟨command, hcmd, htok⟩ := mem_tokens.mp hold
    have hstory := mem_commands_story hcmd (by rw [htok])
    rw [htok] at hstory
    have htold := hchron.told i slot hslot (RequestSlot.held_of_isLive hdispatchable.live)
    have hget := htold.getElem?_of_mem hstory
    have hlt := lt_length hget
    rw [htold.count, htok] at hlt
    exact Nat.lt_irrefl _ hlt
  | flush hdev hpres _ hpend _ _ _ _ hname _ hflush =>
    obtain rfl := mem_singleton.mp hmem
    have hnone := hflushing.pending _ _ hdev hpres hpend
    exact flushesTo_eq_nil.mp hnone _ hold hflush hname
  | advance => split at hmem <;> cases hmem
  | _ => cases hmem

theorem Move.report_fresh (hchron : Chronicle config t history) (h : Accounts t history)
    (hmem : token ∈ reports events) : token ∉ reports history := by
  intro hold
  cases hmove with
  | @complete i _ slot _ other _ _ hslot hheld hreq _ _ _ _ _ hflush hch =>
    obtain rfl := mem_singleton.mp hmem
    have hev : Event.request (.completed token) = some (.fromParts i slot.generation) := by
      rw [← hreq]
      exact if_neg (by rw [hflush]; exact nofun)
    have hacc : token ∈ accepted (story (.fromParts i slot.generation) history) := by
      refine mem_filterMap.mpr ⟨.completed token,
        mem_filter.mpr ⟨mem_reports.mp hold, decide_eq_true hev⟩, ?_⟩
      exact if_neg (by rw [hflush]; exact nofun)
    have hdone := (hchron.told i slot hslot hheld).accepted_done token hacc
    cases hdone.symm.trans hch
  | completeFlush hdev hpres hname _ hflush hinFl =>
    obtain rfl := mem_singleton.mp hmem
    exact h.flushing _ _ _ hdev hpres hinFl token hold hflush hname
  | advance => split at hmem <;> cases hmem
  | _ => cases hmem

theorem Move.length_le_one : events.length ≤ 1 := by
  cases hmove with
  | abort | tune | begin | force => exact Nat.zero_le 1
  | advance =>
    split
    · exact Nat.zero_le 1
    · exact Nat.le_refl 1
  | _ => exact Nat.le_refl 1

end

theorem nodup_filterMap_of_length_le_one {α β : Type} {l : List α} (h : l.length ≤ 1)
    (f : α → Option β) : (l.filterMap f).Nodup := by
  have hle := Nat.le_trans (length_filterMap_le f l) h
  match hl : l.filterMap f, hle with
  | [], _ => exact nodup_nil
  | [b], _ => exact nodup_singleton b

/-! ## What is out after an event -/

section

variable {id : BlockDeviceId} {epoch : Nat}

theorem mem_outstanding {token : DispatchToken} :
    token ∈ outstanding id epoch history ↔ token ∈ tokens history ∧ token.deviceId = id ∧
      token.deviceEpoch = epoch ∧ token ∉ reports history := by
  simp only [outstanding, mem_filter, Bool.and_eq_true, decide_eq_true_eq, and_assoc]

theorem outstanding_append_of_ne (htoks : ∀ token ∈ tokens events, token.deviceId ≠ id)
    (hreports : ∀ token ∈ reports events, token.deviceId ≠ id) :
    outstanding id epoch (history ++ events) = outstanding id epoch history := by
  unfold outstanding
  rw [tokens_append, filter_append]
  have hnew : (tokens events).filter (fun token => token.deviceId = id &&
      token.deviceEpoch = epoch && decide (token ∉ reports (history ++ events))) = [] := by
    refine filter_eq_nil_iff.mpr fun token hmem => ?_
    simp [htoks token hmem]
  rw [hnew, append_nil]
  refine filter_congr fun token _ => ?_
  by_cases hid : token.deviceId = id
  · have hnot : token ∉ reports events := fun hmem => hreports token hmem hid
    simp [reports_append, hnot]
  · simp [hid]

theorem outstanding_dispatched {command : DispatchCommand} (hid : command.token.deviceId = id)
    (hep : command.token.deviceEpoch = epoch) (hnot : command.token ∉ reports history) :
    outstanding id epoch (history ++ [.dispatched command]) =
      outstanding id epoch history ++ [command.token] := by
  have hreports : reports (history ++ [.dispatched command]) = reports history := by
    rw [reports_append]
    exact append_nil _
  unfold outstanding
  rw [hreports, tokens_append, filter_append, tokens_dispatched,
    filter_cons_of_pos (by simp [hid, hep, hnot]), filter_nil]

theorem outstanding_completed {token : DispatchToken} (hnodup : (tokens history).Nodup)
    (hmem : token ∈ outstanding id epoch history) :
    (outstanding id epoch (history ++ [.completed token])).length =
      (outstanding id epoch history).length - 1 := by
  have htoks : tokens (history ++ [.completed token]) = tokens history := by
    rw [tokens_append]
    exact append_nil _
  have hrest : outstanding id epoch (history ++ [.completed token]) =
      (outstanding id epoch history).erase token := by
    have hfilter : (outstanding id epoch history).Nodup := hnodup.filter _
    rw [hfilter.erase_eq_filter]
    unfold outstanding
    rw [htoks, filter_filter]
    refine filter_congr fun other _ => ?_
    have hreports : reports (history ++ [.completed token]) = reports history ++ [token] := by
      rw [reports_append]
      rfl
    rw [hreports]
    by_cases heq : other = token <;> simp [heq]
  rw [hrest, length_erase_of_mem hmem]

theorem outstanding_eq_nil (h : ∀ token ∈ tokens history, token.deviceId = id →
    token.deviceEpoch ≠ epoch) : outstanding id epoch history = [] := by
  refine filter_eq_nil_iff.mpr fun token hmem => ?_
  by_cases hid : token.deviceId = id
  · simp [h token hmem hid]
  · simp [hid]

end

variable (hmove : Move config policy t events t') (hwf : t.Wf config)
  (hflushing : Flushing policy t history) (hhonest : Honest (history ++ events))
  (h : Accounts t history)
include hmove hwf hflushing hhonest h

theorem Move.flush_unreported {i serial : Nat} {device' : DeviceSlot}
    (hget : t'.devices[i]? = some device') (hpres' : device'.present = true)
    (hinFl : device'.shutdownFlush = .inFlight serial)
    (hmem : token ∈ reports (history ++ events)) (hflush : token.shutdownFlush = true) :
    token.deviceId ≠ .fromParts i device'.generation := by
  obtain ⟨device, hdev, hturn⟩ := hmove.turn hwf hget
  rw [reports_append] at hmem
  cases hturn with
  | same hsame _ hreports =>
    rw [hsame.generation]
    rcases mem_append.mp hmem with hold | hnew
    · exact h.flushing i device serial hdev (hsame.present.symm.trans hpres')
        (hsame.shutdownFlush.symm.trans hinFl) token hold hflush
    · exact hreports token hnew
  | registered _ _ _ _ _ _ hregd =>
    rw [hinFl] at hregd
    rcases hregd with ⟨-, hnone⟩ | ⟨-, hpend⟩
    · cases hnone
    · cases hpend
  | sent hpres _ _ _ hsame =>
    rw [hsame.generation]
    have hold : token ∈ reports history := append_nil (reports history) ▸ hmem
    exact h.flushing i device serial hdev hpres (hsame.shutdownFlush.symm.trans hinFl)
      token hold hflush
  | flushed hpres _ _ _ _ hpend _ hsame =>
    rw [hsame.generation]
    have hold : token ∈ reports history := append_nil (reports history) ▸ hmem
    have hnone := hflushing.pending i device hdev hpres hpend
    exact flushesTo_eq_nil.mp hnone token (hhonest.of_append.reports_sub hold) hflush
  | answered hpres _ _ hcmd hsame =>
    rw [hsame.generation]
    rcases mem_append.mp hmem with hold | hnew
    · exact h.flushing i device serial hdev hpres
        (hsame.shutdownFlush.symm.trans hinFl) token hold hflush
    · rw [mem_singleton.mp hnew, hcmd] at hflush
      cases hflush
  | flushAnswered _ _ _ _ _ hdone hsame =>
    have hbusy := hsame.shutdownFlush.symm.trans hinFl
    rcases hdone with rfl | rfl <;> cases hbusy
  | stopped _ _ _ _ _ _ _ hstopped =>
    rw [hinFl] at hstopped
    rcases hstopped with hfailed | ⟨hnone, -⟩
    · cases hfailed
    · cases hnone
  | begun _ _ _ hbegun hsame =>
    have hbusy := hsame.shutdownFlush.symm.trans hinFl
    rcases hbegun with ⟨rfl, -⟩ | rfl <;> cases hbusy

variable (hpol : policy.epochs = true) (hknown : Known t history)
  (hchron : Chronicle config t history)
include hpol hknown hchron

theorem Move.inFlight_eq {i : Nat} {device' : DeviceSlot}
    (hget : t'.devices[i]? = some device') (hpres' : device'.present = true) :
    device'.inFlight =
      (outstanding (.fromParts i device'.generation) device'.epoch (history ++ events)).length := by
  obtain ⟨device, hdev, hturn⟩ := hmove.turn hwf hget
  have hbef := h.inFlight i device hdev
  -- one command more
  have hsent : ∀ {command : DispatchCommand}, events = [.dispatched command] →
      command.token.deviceId = .fromParts i device.generation →
      command.token.deviceEpoch = device.epoch →
      (outstanding (.fromParts i device.generation) device.epoch (history ++ events)).length =
        (outstanding (.fromParts i device.generation) device.epoch history).length + 1 := by
    rintro command rfl hname hep
    have hfresh := hmove.token_fresh hchron hflushing (mem_singleton.mpr rfl)
    rw [outstanding_dispatched hname hep fun hmem =>
      hfresh (hhonest.of_append.reports_sub hmem), length_append, length_singleton]
  -- one command less
  have hanswered : ∀ {token : DispatchToken}, events = [.completed token] →
      token.deviceId = .fromParts i device.generation → token.deviceEpoch = device.epoch →
      (outstanding (.fromParts i device.generation) device.epoch (history ++ events)).length =
        (outstanding (.fromParts i device.generation) device.epoch history).length - 1 := by
    rintro token rfl hname hep
    have hfresh := hmove.report_fresh hchron h (mem_singleton.mpr rfl)
    exact outstanding_completed h.tokens_nodup
      (mem_outstanding.mpr ⟨hhonest.report_known, hname, hep, hfresh⟩)
  cases hturn with
  | same hsame htoks hreports =>
    rw [hsame.inFlight, hsame.generation, hsame.epoch, outstanding_append_of_ne htoks hreports]
    exact hbef (hsame.present.symm.trans hpres')
  | registered _ hgen _ _ _ hinFl =>
    have hnone : outstanding (.fromParts i device'.generation) device'.epoch history = [] := by
      exact outstanding_eq_nil fun token hmem hname =>
        absurd hname (hknown.fresh hdev hgen token hmem)
    rw [outstanding_append_of_ne (forall_mem_nil _) (forall_mem_nil _), hnone, hinFl]
    rfl
  | sent hpres hname hep _ hsame =>
    rw [hsame.inFlight, hsame.generation, hsame.epoch, hsent rfl hname hep]
    exact congrArg (· + 1) (hbef hpres)
  | flushed hpres hname hep _ _ _ hidle hsame =>
    rw [hsame.inFlight, hsame.generation, hsame.epoch, hsent rfl hname hep, ← hbef hpres, hidle]
  | answered hpres hname hep _ hsame | flushAnswered hpres hname hep _ _ _ hsame =>
    rw [hsame.inFlight, hsame.generation, hsame.epoch, hanswered rfl hname hep]
    exact congrArg (· - 1) (hbef hpres)
  | stopped _ hep hgen _ _ hinFl _ _ htoks hreports =>
    have hnext : device'.epoch = device.epoch + 1 := by
      rcases hep with hep | ⟨hfalse, -⟩
      · exact hep
      · exact absurd (hpol.symm.trans hfalse) nofun
    have hnone : outstanding (.fromParts i device'.generation) device'.epoch history = [] := by
      refine outstanding_eq_nil fun token hmem hname => ?_
      rcases hknown i device hdev token hmem _ hname with hlt | ⟨-, -, hle⟩ <;> omega
    rw [outstanding_append_of_ne (by rw [htoks]; exact forall_mem_nil _)
      (by rw [hreports]; exact forall_mem_nil _), hnone, hinFl]
    rfl
  | begun _ _ hpres _ hsame =>
    rw [hsame.inFlight, hsame.generation, hsame.epoch, append_nil]
    exact hbef hpres

theorem Move.accounts : Accounts t' (history ++ events) := by
  refine ⟨?_, ?_, fun i device' serial hget hpres hinFl token hmem hflush =>
    hmove.flush_unreported hwf hflushing hhonest h hget hpres hinFl hmem hflush,
    fun i device' hget hpres =>
      hmove.inFlight_eq hwf hflushing hhonest h hpol hknown hchron hget hpres⟩
  · rw [tokens_append]
    refine nodup_append.mpr ⟨h.tokens_nodup,
      nodup_filterMap_of_length_le_one hmove.length_le_one _, fun token hold other hnew => ?_⟩
    rintro rfl
    exact hmove.token_fresh hchron hflushing hnew hold
  · rw [reports_append]
    refine nodup_append.mpr ⟨h.reports_nodup,
      nodup_filterMap_of_length_le_one hmove.length_le_one _, fun token hold other hnew => ?_⟩
    rintro rfl
    exact hmove.report_fresh hchron h hnew hold

end Ginkgo.Kernel.AsyncBlock
