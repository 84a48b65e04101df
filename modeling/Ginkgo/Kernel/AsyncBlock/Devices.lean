import Ginkgo.Kernel.AsyncBlock.Story

/-!
# Devices

What a move does to one device, with the commands that it sends to the device and the
completions that it accepts from it.
-/

namespace Ginkgo.Kernel.AsyncBlock

open Ginkgo.Lib List

variable {config : QueueConfig} {policy : Policy} {t t' : Table} {history events : List Event}
  {token : DispatchToken} {device' : DeviceSlot}

namespace Event

def token? : Event → Option DispatchToken
  | dispatched command => some command.token
  | _ => none

def report? : Event → Option DispatchToken
  | completed token => some token
  | _ => none

end Event

/-- The commands that were dispatched, shutdown flushes among them. -/
def tokens (history : List Event) : List DispatchToken := history.filterMap Event.token?

/-- The commands whose completion was accepted, shutdown flushes among them. -/
def reports (history : List Event) : List DispatchToken := history.filterMap Event.report?

theorem tokens_append (history events : List Event) :
    tokens (history ++ events) = tokens history ++ tokens events :=
  filterMap_append

theorem reports_append (history events : List Event) :
    reports (history ++ events) = reports history ++ reports events :=
  filterMap_append

theorem tokens_dispatched (command : DispatchCommand) :
    tokens [.dispatched command] = [command.token] := rfl

theorem reports_completed (token : DispatchToken) : reports [.completed token] = [token] := rfl

theorem mem_tokens :
    token ∈ tokens history ↔ ∃ command, .dispatched command ∈ history ∧ command.token = token := by
  refine ⟨fun h => ?_, fun ⟨command, hmem, htok⟩ => ?_⟩
  · obtain ⟨event, hmem, hev⟩ := mem_filterMap.mp h
    cases event with
    | dispatched command => exact ⟨command, hmem, Option.some.inj hev⟩
    | _ => cases hev
  · exact mem_filterMap.mpr ⟨.dispatched command, hmem, congrArg some htok⟩

theorem mem_reports : token ∈ reports history ↔ .completed token ∈ history := by
  refine ⟨fun h => ?_, fun h => mem_filterMap.mpr ⟨.completed token, h, rfl⟩⟩
  obtain ⟨event, hmem, hev⟩ := mem_filterMap.mp h
  cases event with
  | completed other =>
    cases hev
    exact hmem
  | _ => cases hev

/-! ## One device -/

/-- The device but for its sequence numbers and its share of the scheduler. -/
structure SameAccount (device device' : DeviceSlot) : Prop where
  generation : device'.generation = device.generation
  epoch : device'.epoch = device.epoch
  everRegistered : device'.everRegistered = device.everRegistered
  present : device'.present = device.present
  config : device'.config = device.config
  inFlight : device'.inFlight = device.inFlight
  nonBackgroundDispatches : device'.nonBackgroundDispatches = device.nonBackgroundDispatches
  shutdownFlush : device'.shutdownFlush = device.shutdownFlush

theorem SameAccount.refl (device : DeviceSlot) : SameAccount device device :=
  ⟨rfl, rfl, rfl, rfl, rfl, rfl, rfl, rfl⟩

theorem SameDevice.sameAccount {device : DeviceSlot} (h : SameDevice device device') :
    SameAccount device device' := { h with }

/-- No command of these names the device. -/
def Unnamed (index generation : Nat) (tokens : List DispatchToken) : Prop :=
  ∀ token ∈ tokens, token.deviceId ≠ .fromParts index generation

theorem unnamed_nil (i generation : Nat) : Unnamed i generation [] :=
  forall_mem_nil _

/-- What a move from `t` to `t'` does to the device at an index. -/
inductive Turn (policy : Policy) (t t' : Table) (index : Nat) (device device' : DeviceSlot) :
    List Event → Prop
  | same {events : List Event} (hsame : SameAccount device device')
      (htokens : Unnamed index device.generation (tokens events))
      (hreports : Unnamed index device.generation (reports events)) :
      Turn policy t t' index _ _ events
  | registered {id : BlockDeviceId} (habsent : device.present = false)
      (hgeneration : device.everRegistered = false ∧ device'.generation = device.generation ∨
        device'.generation = device.generation + 1)
      (hpresent : device'.present = true) (hever : device'.everRegistered = true)
      (hepoch : device'.epoch = 1) (hinFlight : device'.inFlight = 0)
      (hflush : t.shutdown ≠ .quiescing ∧ device'.shutdownFlush = .none ∨
        t.shutdown = .quiescing ∧ device'.shutdownFlush = .pending)
      (hflushes : policy.flushes = true → t.shutdown = .quiescing →
        device'.config.supportsFlush = true)
      (hdrains : policy.drains = true → t.shutdown ≠ .drained) :
      Turn policy t t' index _ _ [.registered id]
  | sent {command : DispatchCommand} (hpresent : device.present = true)
      (hname : command.token.deviceId = .fromParts index device.generation)
      (hepoch : command.token.deviceEpoch = device.epoch)
      (hflush : command.token.shutdownFlush = false)
      (hsame : SameAccount { device with
        inFlight := device.inFlight + 1
        nonBackgroundDispatches := if command.priority = .background then 0
          else min (device.nonBackgroundDispatches + 1) u32Max } device') :
      Turn policy t t' index _ _ [.dispatched command]
  | flushed {command : DispatchCommand} (hpresent : device.present = true)
      (hname : command.token.deviceId = .fromParts index device.generation)
      (hepoch : command.token.deviceEpoch = device.epoch)
      (hflush : command.token.shutdownFlush = true) (hquiescing : t.shutdown = .quiescing)
      (hpending : device.shutdownFlush = .pending) (hidle : device.inFlight = 0)
      (hsame : SameAccount { device with
        inFlight := 1, shutdownFlush := .inFlight command.token.serial } device') :
      Turn policy t t' index _ _ [.dispatched command]
  | answered {token : DispatchToken} (hpresent : device.present = true)
      (hname : token.deviceId = .fromParts index device.generation)
      (hepoch : token.deviceEpoch = device.epoch) (hflush : token.shutdownFlush = false)
      (hsame : SameAccount { device with inFlight := device.inFlight - 1 } device') :
      Turn policy t t' index _ _ [.completed token]
  | flushAnswered {token : DispatchToken} {flush : ShutdownFlushState}
      (hpresent : device.present = true)
      (hname : token.deviceId = .fromParts index device.generation)
      (hepoch : token.deviceEpoch = device.epoch) (hflush : token.shutdownFlush = true)
      (hinFlight : device.shutdownFlush = .inFlight token.serial)
      (hdone : flush = .done ∨ flush = .failed)
      (hsame : SameAccount { device with
        inFlight := device.inFlight - 1, shutdownFlush := flush } device') :
      Turn policy t t' index _ _ [.completed token]
  | stopped {events : List Event} (hpresent : device.present = true)
      (hepoch : device'.epoch = device.epoch + 1 ∨
        policy.epochs = false ∧ device'.epoch = device.epoch)
      (hgeneration : device'.generation = device.generation)
      (hever : device'.everRegistered = device.everRegistered)
      (hconfig : device'.config = device.config) (hinFlight : device'.inFlight = 0)
      (hcounter : device'.nonBackgroundDispatches = device.nonBackgroundDispatches)
      (hflush : device'.shutdownFlush = .failed ∨
        device'.shutdownFlush = .none ∧ t.shutdown ≠ .quiescing ∧
          (policy.drains = true → t.shutdown ≠ .drained))
      (htokens : tokens events = []) (hreports : reports events = [])
      (hgone : ∀ slot ∈ t'.slots, slot.isLive = true →
        slot.device ≠ .fromParts index device.generation) :
      Turn policy t t' index _ _ events
  | begun {flush : ShutdownFlushState} (hrunning : t.shutdown = .running)
      (hquiescing : t'.shutdown = .quiescing) (hpresent : device.present = true)
      (hflush : flush = .pending ∧ device.config.supportsFlush = true ∨ flush = .done)
      (hsame : SameAccount { device with shutdownFlush := flush } device') :
      Turn policy t t' index _ _ []

/-- A device that is present was there before under its name, unless it is new; and its
requests end where its epoch does. -/
theorem Turn.kept {i : Nat} (h : Turn policy t t' i device device' events)
    (hpres : device'.present = true) :
    (device.present = true ∧ device'.generation = device.generation ∧
        device'.config = device.config ∧ (device'.epoch = device.epoch ∨ ∀ slot ∈ t'.slots,
          slot.isLive = true → slot.device ≠ .fromParts i device.generation)) ∨
      device.present = false ∧ ∃ id, events = [.registered id] := by
  cases h with
  | same hsame =>
    exact .inl ⟨hsame.present.symm.trans hpres, hsame.generation, hsame.config, .inl hsame.epoch⟩
  | registered habsent => exact .inr ⟨habsent, _, rfl⟩
  | sent hold _ _ _ hsame | answered hold _ _ _ hsame | begun _ _ hold _ hsame =>
    exact .inl ⟨hold, hsame.generation, hsame.config, .inl hsame.epoch⟩
  | flushed hold _ _ _ _ _ _ hsame | flushAnswered hold _ _ _ _ _ hsame =>
    exact .inl ⟨hold, hsame.generation, hsame.config, .inl hsame.epoch⟩
  | stopped hold _ hgen _ hcfg _ _ _ _ _ hgone => exact .inl ⟨hold, hgen, hcfg, .inr hgone⟩

section

variable (hmove : Move config policy t events t') {i : Nat}
include hmove

theorem Move.turn (hwf : t.Wf config) (hget : t'.devices[i]? = some device') :
    ∃ device, t.devices[i]? = some device ∧ Turn policy t t' i device device' events := by
  -- the devices stay, and nothing is heard of them
  have hquiet : tokens events = [] → reports events = [] → t.devices[i]? = some device' →
      ∃ device, t.devices[i]? = some device ∧ Turn policy t t' i device device' events := by
    intro htoks hreports hold
    exact ⟨device', hold, .same (.refl _) (by rw [htoks]; exact unnamed_nil _ _)
      (by rw [hreports]; exact unnamed_nil _ _)⟩
  -- another device is set, whose name the events bear
  have hother : ∀ {index : Nat} {old new : DeviceSlot}, t.devices[index]? = some old →
      (∀ token ∈ tokens events, token.deviceId = .fromParts index old.generation) →
      (∀ token ∈ reports events, token.deviceId = .fromParts index old.generation) →
      (t.devices.set index new)[i]? = some device' →
      Turn policy t t' index old new events →
        ∃ device, t.devices[i]? = some device ∧ Turn policy t t' i device device' events := by
    intro index old new hold htoks hreports hset hturn
    rcases (getElem?_set_iff hold new i device').mp hset with ⟨rfl, rfl⟩ | ⟨hne, hi⟩
    · exact ⟨old, hold, hturn⟩
    · refine ⟨device', hi, .same (.refl _) (fun token hmem heq => hne ?_)
        fun token hmem heq => hne ?_⟩
      · exact (hwf.device_inj hold hi ((htoks token hmem).symm.trans heq)).1.symm
      · exact (hwf.device_inj hold hi ((hreports token hmem).symm.trans heq)).1.symm
  cases hmove with
  | register hdev habsent hgen hpres hever hep hinFl _ _ _ hflush hflushes hdrains =>
    exact hother hdev (forall_mem_nil _) (forall_mem_nil _) hget
      (.registered habsent hgen hpres hever hep hinFl hflush hflushes hdrains)
  | submit _ _ hdev =>
    exact hother hdev (forall_mem_nil _) (forall_mem_nil _) hget
      (.same ⟨rfl, rfl, rfl, rfl, rfl, rfl, rfl, rfl⟩ (unnamed_nil _ _) (unnamed_nil _ _))
  | reject | abort | notify | take | force => exact hquiet rfl rfl hget
  | dispatch _ hdev hpres hname _ _ _ _ hsame =>
    exact hother hdev (forall_mem_singleton.mpr hname) (forall_mem_nil _) hget
      (.sent hpres hname rfl rfl { hsame with })
  | flush hdev hpres hqsc hpend hidle _ _ _ hname hep hflush hsame =>
    exact hother hdev (forall_mem_singleton.mpr hname) (forall_mem_nil _) hget
      (.flushed hpres hname hep hflush hqsc hpend hidle hsame.sameAccount)
  | complete _ _ _ hdev hpres hname _ hep hflush =>
    exact hother hdev (forall_mem_nil _) (forall_mem_singleton.mpr hname) hget
      (.answered hpres hname hep hflush (.refl _))
  | completeFlush hdev hpres hname hep hflush hinFl hdone =>
    exact hother hdev (forall_mem_nil _) (forall_mem_singleton.mpr hname) hget
      (.flushAnswered hpres hname hep hflush hinFl hdone (.refl _))
  | @advance deviceIndex device stopped _ _ hdev hpres hep _ hgen hever hcfg
      hinFl _ _ hcounter hflush =>
    generalize hheard : (if stopped.epoch = device.epoch then []
      else [Event.advanced (.fromParts deviceIndex device.generation)]) = heard at hother ⊢
    have htoks : tokens heard = [] := by
      rw [← hheard]
      split <;> rfl
    have hreports : reports heard = [] := by
      rw [← hheard]
      split <;> rfl
    exact hother hdev (htoks ▸ forall_mem_nil _) (hreports ▸ forall_mem_nil _) hget
      (.stopped hpres hep hgen hever hcfg hinFl hcounter hflush htoks hreports gone_of_fail)
  | tune hdevs =>
    obtain ⟨device, hdev, hsame⟩ := forall₂_getElem?_right hdevs hget
    exact ⟨device, hdev, .same hsame.sameAccount (unnamed_nil _ _) (unnamed_nil _ _)⟩
  | begin hrun hdevs =>
    obtain ⟨device, hdev, hflush⟩ := forall₂_getElem?_right hdevs hget
    refine ⟨device, hdev, ?_⟩
    rcases hflush with ⟨rfl, -⟩ | ⟨flush, rfl, hpres, hflush⟩
    · exact .same (.refl _) (unnamed_nil _ _) (unnamed_nil _ _)
    · exact .begun hrun rfl hpres hflush (.refl _)

theorem Move.present_cases (hwf : t.Wf config)
    {id : BlockDeviceId} (hpres : t'.Present id i device') :
    (∃ device, t.Present id i device ∧ device'.config = device.config) ∨
      ∃ id, events = [.registered id] := by
  obtain ⟨hget, hthere, hname⟩ := hpres
  obtain ⟨device, hdev, hturn⟩ := hmove.turn hwf hget
  rcases hturn.kept hthere with ⟨hold, hgen, hcfg, -⟩ | ⟨-, hregd⟩
  · exact .inl ⟨device, ⟨hdev, hold, hgen ▸ hname⟩, hcfg⟩
  · exact .inr hregd

/-- The device of a live request keeps its epoch and what it can do. -/
theorem Move.present_of_live (hwf : t.Wf config)
    {slot : RequestSlot} (hmem : slot ∈ t'.slots) (hlive : slot.isLive = true)
    (hpres : t'.Present slot.device i device') :
    ∃ device, t.Present slot.device i device ∧ device'.epoch = device.epoch ∧
      device'.config = device.config := by
  obtain ⟨hget, hthere, hname⟩ := hpres
  obtain ⟨device, hdev, hturn⟩ := hmove.turn hwf hget
  rcases hturn.kept hthere with ⟨hold, hgen, hcfg, hep | hgone⟩ | ⟨habsent, _, hregd⟩
  · exact ⟨device, ⟨hdev, hold, hgen ▸ hname⟩, hep, hcfg⟩
  · exact absurd (hgen ▸ hname) (hgone slot hmem hlive)
  · -- a live request names no device that was absent
    obtain ⟨k, hk⟩ := mem_iff_getElem?.mp hmem
    rcases hmove.live_cases hwf hk hlive with ⟨old, hold, holdLive, -, hspec⟩ | ⟨-, hevs, -⟩
    · obtain ⟨j, other, hother, hpres, hname'⟩ :=
        hwf.attached old (mem_of_getElem? hold) holdLive
      have hnames := (congrArg RequestSpec.device hspec).symm.trans hname
      obtain ⟨rfl, -⟩ := hwf.device_inj hother hdev (hname'.symm.trans hnames)
      cases hdev.symm.trans hother
      exact nomatch habsent.symm.trans hpres
    · cases hregd.symm.trans hevs

end

theorem Moves.present_of_quiet (hmoves : Moves config policy t [] t') (hwf : t.Wf config)
    {id : BlockDeviceId} (hpres : t'.Present id i device') :
    ∃ device, t.Present id i device ∧ device'.config = device.config := by
  have hall := hmoves.invariant (I := fun past t' => t'.Wf config ∧ (past = [] → ∀ device',
    t'.Present id i device' → ∃ device, t.Present id i device ∧ device'.config = device.config))
    ⟨hwf, fun _ device' hpres => ⟨device', hpres, rfl⟩⟩ fun past t1 heard t2 hinv hmove => by
      refine ⟨hmove.wf hinv.1, fun hnone device' hpres => ?_⟩
      obtain ⟨rfl, rfl⟩ := append_eq_nil_iff.mp hnone
      rcases hmove.present_cases hinv.1 hpres with ⟨device1, hpres1, hcfg⟩ | ⟨_, hevs⟩
      · obtain ⟨device, hdev, hcfg'⟩ := hinv.2 rfl device1 hpres1
        exact ⟨device, hdev, hcfg.trans hcfg'⟩
      · cases hevs
  exact hall.2 rfl device' hpres

theorem Move.token_cases (hmove : Move config policy t events t') (hmem : token ∈ tokens events) :
    ∃ i device, t.Present token.deviceId i device ∧ token.deviceEpoch = device.epoch ∧
      tokens events = [token] ∧ (token.shutdownFlush = true →
        t.shutdown = .quiescing ∧ device.shutdownFlush = .pending) := by
  cases hmove with
  | dispatch _ hdev hpres hname =>
    obtain rfl := mem_singleton.mp hmem
    exact ⟨_, _, ⟨hdev, hpres, hname⟩, rfl, rfl, nofun⟩
  | flush hdev hpres hqsc hpend _ _ _ _ hname hep =>
    obtain rfl := mem_singleton.mp hmem
    exact ⟨_, _, ⟨hdev, hpres, hname⟩, hep, rfl, fun _ => ⟨hqsc, hpend⟩⟩
  | advance =>
    split at hmem <;> cases hmem
  | _ => cases hmem

/-- Commands name devices that were registered, in epochs that have come. -/
def Known (t : Table) (history : List Event) : Prop :=
  ∀ (i : Nat) (device : DeviceSlot), t.devices[i]? = some device →
    ∀ token ∈ tokens history, ∀ generation, token.deviceId = .fromParts i generation →
      generation < device.generation ∨
        generation = device.generation ∧ device.everRegistered = true ∧
          token.deviceEpoch ≤ device.epoch

theorem Known.fresh (h : Known t history) {i generation : Nat} {device : DeviceSlot}
    (hdev : t.devices[i]? = some device)
    (hgen : device.everRegistered = false ∧ generation = device.generation ∨
      generation = device.generation + 1) : Unnamed i generation (tokens history) := by
  intro token hmem hname
  rcases h i device hdev token hmem _ hname with hlt | ⟨heq, hever, -⟩
  · omega
  · rcases hgen with ⟨hnever, -⟩ | hgen
    · rw [hnever] at hever
      cases hever
    · omega

theorem Move.known (hmove : Move config policy t events t') (hwf : t.Wf config)
    (hever : ∀ device ∈ t.devices, device.present = true → device.everRegistered = true)
    (h : Known t history) : Known t' (history ++ events) := by
  intro i device' hget token hmem generation hname
  obtain ⟨device, hdev, hturn⟩ := hmove.turn hwf hget
  have hbef : generation < device.generation ∨ generation = device.generation ∧
    device.everRegistered = true ∧
        token.deviceEpoch ≤ device.epoch := by
    rw [tokens_append] at hmem
    rcases mem_append.mp hmem with hold | hnew
    · exact h i device hdev token hold generation hname
    · obtain ⟨j, other, ⟨hother, hpres, hname'⟩, hep, -⟩ := hmove.token_cases hnew
      obtain ⟨rfl, hgen⟩ := hwf.device_inj hother hdev (hname'.symm.trans hname)
      cases hdev.symm.trans hother
      exact .inr ⟨hgen.symm, hever device (mem_of_getElem? hdev) hpres, Nat.le_of_eq hep⟩
  -- the device keeps its name, or takes a new one
  have hkeeps : device'.generation = device.generation → device'.epoch = device.epoch →
      device'.everRegistered = device.everRegistered → generation < device'.generation ∨
        generation = device'.generation ∧ device'.everRegistered = true ∧
          token.deviceEpoch ≤ device'.epoch := by
    intro hgen hep hsame
    rw [hgen, hep, hsame]
    exact hbef
  cases hturn with
  | same hsame | sent _ _ _ _ hsame | flushed _ _ _ _ _ _ _ hsame | answered _ _ _ _ hsame
  | flushAnswered _ _ _ _ _ _ hsame | begun _ _ _ _ hsame =>
    exact hkeeps hsame.generation hsame.epoch hsame.everRegistered
  | registered _ hgen =>
    rcases hgen with ⟨hnever, hgen⟩ | hgen
    · rw [hgen]
      refine hbef.imp_right fun hsame => ?_
      rw [hnever] at hsame
      cases hsame.2.1
    · omega
  | stopped _ hep hgen hever' =>
    rw [hgen, hever']
    exact hbef.imp_right fun ⟨heq, hregd, hle⟩ => ⟨heq, hregd, by omega⟩

end Ginkgo.Kernel.AsyncBlock
