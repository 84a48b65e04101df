import Ginkgo.Kernel.AsyncBlock.Devices

/-!
# Settlement

A command that a live request has out belongs to the current epoch of its device.  When a
request has ended, each of its commands was completed or its device has left the epoch since.
-/

namespace Ginkgo.Kernel.AsyncBlock

open Ginkgo.Lib List RequestSlot ChildState

variable {config : QueueConfig} {policy : Policy} {t t' : Table} {history events : List Event}
  {slot slot' : RequestSlot} {command : DispatchCommand} {id : BlockRequestId} {index : Nat}

/-- The commands that live requests have out belong to the current epoch. -/
def Current (t : Table) (history : List Event) : Prop :=
  ∀ (i : Nat) (slot : RequestSlot), t.slots[i]? = some slot → slot.isLive = true →
    ∀ deviceIndex device, t.Present slot.device deviceIndex device →
      ∀ (k serial : Nat) (notified : Bool), slot.children[k]? = some (.inFlight serial notified) →
        ∀ command, (commands (story (.fromParts i slot.generation) history))[k]? = some command →
          command.token.deviceEpoch = device.epoch

/-- The command that the slot has out was out before, or was sent just now. -/
def Carried (t : Table) (events : List Event) (i k serial : Nat) (slot' : RequestSlot) : Prop :=
  ∃ slot, t.slots[i]? = some slot ∧ slot.isLive = true ∧ slot'.generation = slot.generation ∧
    slot'.device = slot.device ∧
    ((∃ notified, slot.children[k]? = some (.inFlight serial notified)) ∨
      ∃ command, events = [.dispatched command] ∧ k = slot.nextChild ∧
        command.token.requestId = .fromParts i slot.generation ∧
        command.token.shutdownFlush = false ∧
        ∃ deviceIndex device, t.Present slot.device deviceIndex device ∧
          command.token.deviceEpoch = device.epoch)

theorem Move.carried (hmove : Move config policy t events t') (hwf : t.Wf config) {i k serial : Nat}
    {notified : Bool} (hslot' : t'.slots[i]? = some slot') (hlive : slot'.isLive = true)
    (hch : slot'.children[k]? = some (.inFlight serial notified)) :
    Carried t events i k serial slot' := by
  obtain ⟨slot, hslot, hturn⟩ := hmove.slotTurn hwf hslot'
  cases hturn with
  | same => exact ⟨slot', hslot, hlive, rfl, rfl, .inl ⟨notified, hch⟩⟩
  | submitted => cases eq_of_mem_replicate (mem_of_getElem? hch)
  | stepped hstep =>
    have hgoes := hstep.goes
    refine ⟨slot, hslot, hgoes.live hlive, hgoes.generation, hgoes.device, ?_⟩
    cases hstep with
    | sent hdispatchable hpres hreq _ hep _ hflush =>
      have hok := hwf.slotOk slot (mem_of_getElem? hslot)
      have hlt := Nat.lt_of_lt_of_le hdispatchable.next hok.bounded
      have hpend := (hok.started slot.nextChild).mpr ⟨hlt, Nat.le_refl _⟩
      rcases (getElem?_set_iff hpend _ k _).mp hch with ⟨rfl, -⟩ | ⟨-, hk⟩
      · exact .inr ⟨_, rfl, rfl, hreq, hflush, _, _, hpres, hep⟩
      · exact .inl ⟨notified, hk⟩
    | answered _ _ _ hdone hanswered =>
      rw [hanswered.children] at hch
      rcases (getElem?_set_iff hdone _ k _).mp hch with ⟨-, heq⟩ | ⟨-, hk⟩
      · cases heq
      · exact .inl ⟨notified, hk⟩
    | aborted outcome hslotLive =>
      exact .inl ⟨notified, (ages_abort hslotLive outcome).children ▸ hch⟩
    | notified _ _ hnotif =>
      rcases (getElem?_set_iff hnotif _ k _).mp hch with ⟨rfl, heq⟩ | ⟨-, hk⟩
      · obtain ⟨rfl, -⟩ := inFlight.inj heq
        exact .inl ⟨false, hnotif⟩
      · exact .inl ⟨notified, hk⟩
    | failed => cases hlive
  | taken =>
    rw [takenSlot_isLive] at hlive
    cases hlive

theorem Move.current (hmove : Move config policy t events t') (hwf : t.Wf config)
    (hchron : Chronicle config t history) (h : Current t history) :
    Current t' (history ++ events) := by
  intro i slot' hslot' hlive d device' hpres' k serial notified hch command hcmd
  obtain ⟨device, hpres, hep, -⟩ :=
    hmove.present_of_live hwf (mem_of_getElem? hslot') hlive hpres'
  obtain ⟨slot, hslot, hslotLive, hgen, hdev, hcarried⟩ := hmove.carried hwf hslot' hlive hch
  have htold := hchron.told i slot hslot (held_of_isLive hslotLive)
  rw [hdev] at hpres
  rw [hgen, story_append, commands_append] at hcmd
  rw [hep]
  rcases hcarried with ⟨notified', hold⟩ | ⟨sent, rfl, rfl, hname, hflush, j, other, hother, hsent⟩
  · have hlt := (hwf.slotOk slot (mem_of_getElem? hslot)).child_lt hold
    rw [getElem?_append_left (by rw [htold.count]; exact hlt)] at hcmd
    exact h i slot hslot hslotLive d device hpres k serial notified' hold command hcmd
  · have hlast : commands (story (.fromParts i slot.generation) [.dispatched sent]) = [sent] := by
      have hstory := story_concat_of_eq [] (hname ▸ request_dispatched hflush)
      rw [nil_append] at hstory
      rw [hstory]
      exact commands_dispatched hflush
    rw [hlast, ← htold.count, getElem?_concat_length] at hcmd
    cases hcmd
    obtain ⟨rfl, -⟩ := hwf.device_inj hother.1 hpres.1 (hother.2.2.symm.trans hpres.2.2)
    cases hother.1.symm.trans hpres.1
    exact hsent

/-! ## Settled commands -/

/-- After the command was dispatched it was completed, or its device left the epoch. -/
def Settled (history : List Event) (token : DispatchToken) : Prop :=
  ∃ before command after, history = before ++ .dispatched command :: after ∧
    command.token = token ∧ (.completed token ∈ after ∨ .advanced token.deviceId ∈ after)

theorem Settled.append {token : DispatchToken} (h : Settled history token) (events : List Event) :
    Settled (history ++ events) token := by
  obtain ⟨before, command, after, rfl, htok, hafter⟩ := h
  refine ⟨before, command, after ++ events, by rw [append_assoc]; rfl, htok, ?_⟩
  exact hafter.imp (mem_append_left _) (mem_append_left _)

theorem settled_concat {event : Event} (hmem : .dispatched command ∈ history)
    (hev : event = .completed command.token ∨ event = .advanced command.token.deviceId) :
    Settled (history ++ [event]) command.token := by
  obtain ⟨before, after, rfl⟩ := append_of_mem hmem
  refine ⟨before, command, after ++ [event], by rw [append_assoc]; rfl, rfl, ?_⟩
  rcases hev with rfl | rfl
  · exact .inl (mem_append_right _ mem_cons_self)
  · exact .inr (mem_append_right _ mem_cons_self)

theorem dispatched_of_mem_commands (h : command ∈ commands history) :
    .dispatched command ∈ history := by
  obtain ⟨event, hmem, hev⟩ := mem_filterMap.mp h
  cases event with
  | dispatched other =>
    change (if other.token.shutdownFlush then none else some other) = some command at hev
    split at hev
    · cases hev
    · cases hev
      exact hmem
  | _ => cases hev

theorem dispatched_of_mem_story (h : command ∈ commands (story id history)) :
    .dispatched command ∈ history :=
  (mem_filter.mp (dispatched_of_mem_commands h)).1

/-- The driver reports only commands that were given to it. -/
def Honest (history : List Event) : Prop :=
  ∀ before token after, history = before ++ .completed token :: after →
    ∃ command, .dispatched command ∈ before ∧ command.token = token

theorem Honest.of_append (h : Honest (history ++ events)) : Honest history := by
  intro before token after heq
  exact h before token (after ++ events) (by rw [heq, append_assoc]; rfl)

def SlotSettled (i : Nat) (slot : RequestSlot) (history : List Event) : Prop :=
  ∀ (k : Nat) command,
    (commands (story (.fromParts i slot.generation) history))[k]? = some command →
    slot.children[k]? = some .done ∨ slot.isLive = false → Settled history command.token

/-- Commands that are done, and all commands of a request that has ended, are settled. -/
structure Settling (t : Table) (history : List Event) : Prop where
  slots : ∀ (i : Nat) (slot : RequestSlot), t.slots[i]? = some slot → slot.isHeld = true →
    SlotSettled i slot history
  taken : ∀ id, completions (story id history) ≠ [] →
    ∀ command ∈ commands (story id history), Settled history command.token

theorem SlotSettled.append {i : Nat} (h : SlotSettled i slot history)
    (hevs : ∀ event ∈ events, event.request ≠ some (.fromParts i slot.generation)) :
    SlotSettled i slot (history ++ events) := by
  intro k command hcmd hended
  rw [story_append_of_ne hevs] at hcmd
  exact (h k command hcmd hended).append events

theorem Told.getElem?_of_mem {heard : List Event} (h : Told config index slot heard)
    (hmem : command ∈ commands heard) :
    (commands heard)[command.token.childIndex]? = some command := by
  obtain ⟨k, hk⟩ := mem_iff_getElem?.mp hmem
  rw [(h.issued k command hk).childIndex]
  exact hk

theorem mem_commands_story (hmem : .dispatched command ∈ history)
    (hflush : command.token.shutdownFlush = false) :
    command ∈ commands (story command.token.requestId history) := by
  refine mem_filterMap.mpr ⟨.dispatched command,
    mem_filter.mpr ⟨hmem, decide_eq_true (request_dispatched hflush)⟩, ?_⟩
  exact if_neg (by rw [hflush]; exact nofun)

section Steps

variable (h : SlotSettled index slot history)
  (htold : Told config index slot (story (.fromParts index slot.generation) history))
  (hok : SlotOk config slot)
include h htold hok

theorem SlotSettled.complete {token : DispatchToken} {serial : Nat} {notified : Bool}
    (hok' : SlotOk config slot')
    (hch : slot.children[token.childIndex]? = some (.inFlight serial notified))
    (hanswered : Answered token.childIndex slot slot')
    (hreq : token.requestId = .fromParts index slot.generation)
    (hflush : token.shutdownFlush = false)
    (hhonest : ∃ command, .dispatched command ∈ history ∧ command.token = token) :
    SlotSettled index slot' (history ++ [.completed token]) := by
  intro k command hcmd hended
  have hstory : commands (story (.fromParts index slot'.generation)
    (history ++ [.completed token])) =
        commands (story (.fromParts index slot.generation) history) := by
    rw [hanswered.generation, story_concat_of_eq history (hreq ▸ request_completed hflush),
      commands_append]
    exact append_nil _
  rw [hstory] at hcmd
  have hset := getElem?_set_iff hch done
  by_cases hk : k = token.childIndex
  · -- the command is the one that is reported
    obtain ⟨sent, hsent, rfl⟩ := hhonest
    have hmem := mem_commands_story hsent hflush
    rw [hreq] at hmem
    have hget := htold.getElem?_of_mem hmem
    rw [← hk] at hget
    cases hget.symm.trans hcmd
    exact settled_concat hsent (.inl rfl)
  · refine Settled.append (h k command hcmd ?_) _
    cases hlive : slot.isLive with
    | false => exact .inr rfl
    | true =>
      refine .inl ?_
      have hdone : slot'.children[k]? = some .done := by
        rcases hended with hdone | hdead
        · exact hdone
        have hzero := hanswered.ends hlive hdead
        have hcnt := countP_set_add (p := isInFlight) hch .done
        have hcnt : (slot.children.set token.childIndex .done).countP isInFlight + 1 =
            slot.children.countP isInFlight := hcnt
        have hinFl := hok.inFlight hlive
        refine hok'.done_of_idle ?_ ?_
        · rw [hanswered.children]
          omega
        · rw [hanswered.nextChild, ← htold.count]
          exact lt_length hcmd
      rw [hanswered.children] at hdone
      rcases (hset k _).mp hdone with ⟨heq, -⟩ | ⟨-, hdone⟩
      · exact absurd heq hk
      · exact hdone

theorem SlotSettled.abort (hlive : slot.isLive = true) (out : RequestOutcome) :
    SlotSettled index (slot.abort out) history := by
  have hages := ages_abort hlive out
  intro k command hcmd hended
  rw [hages.generation] at hcmd
  refine h k command hcmd (.inl ?_)
  rcases hended with hdone | hdead
  · exact hages.children ▸ hdone
  have hidle : slot.inFlight = 0 := by
    by_contra hbusy
    unfold RequestSlot.abort at hdead
    simp only [hbusy] at hdead
    exact nomatch hlive.symm.trans hdead
  refine hok.done_of_idle ((hok.inFlight hlive).symm.trans hidle) ?_
  rw [← htold.count]
  exact lt_length hcmd

theorem SlotStep.settled (hstep : SlotStep config policy t t' index slot events slot')
    (hpol : policy.epochs = true) (hok' : SlotOk config slot')
    (hhonest : Honest (history ++ events)) :
    SlotSettled index slot' (history ++ events) := by
  cases hstep with
  | sent hdispatchable _ hreq _ _ _ hflush =>
    intro k command hcmd hended
    have hpend := (hok.started slot.nextChild).mpr
      ⟨Nat.lt_of_lt_of_le hdispatchable.next hok.bounded, Nat.le_refl _⟩
    have hdone : slot.children[k]? = some .done := by
      rcases hended with hdone | hdead
      · rcases (getElem?_set_iff hpend _ k _).mp hdone with ⟨-, heq⟩ | ⟨-, hdone⟩
        · cases heq
        · exact hdone
      · cases hdead
    have hlt : k < slot.nextChild := by
      by_contra hge
      have hbnd := lt_length hdone
      rw [hok.size] at hbnd
      exact nomatch hdone.symm.trans ((hok.started k).mpr ⟨hbnd, Nat.not_lt.mp hge⟩)
    have hold : (commands (story (.fromParts index slot.generation) history))[k]? =
      some command := by
      rw [← hcmd]
      change _ = (commands (story (.fromParts index slot.generation) _))[k]?
      rw [story_append, commands_append, getElem?_append_left (by rw [htold.count]; exact hlt)]
    exact (h k command hold (.inl hdone)).append _
  | @answered token _ _ _ hreq hflush hch hanswered =>
    exact h.complete htold hok hok' hch hanswered hreq hflush (hhonest history token [] rfl)
  | aborted out hlive =>
    rw [append_nil]
    exact h.abort htold hok hlive out
  | notified _ hreq hch =>
    intro k command hcmd hended
    have hold : (commands (story (.fromParts index slot.generation) history))[k]? =
      some command := by
      rw [← hcmd]
      change _ = (commands (story (.fromParts index slot.generation) _))[k]?
      rw [story_concat_of_eq history (hreq ▸ rfl), commands_append]
      exact congrArg (·[k]?) (append_nil _).symm
    refine (h k command hold (hended.imp_left fun hdone => ?_)).append _
    rcases (getElem?_set_iff hch _ k _).mp hdone with ⟨-, heq⟩ | ⟨-, hdone⟩
    · cases heq
    · exact hdone
  | failed _ _ hevs =>
    rcases hevs with ⟨-, hfalse⟩ | rfl
    · exact nomatch hpol.symm.trans hfalse
    intro k command hcmd _
    have hcmd : (commands (story (.fromParts index slot.generation) _))[k]? = some command := hcmd
    have hheard : ∀ event ∈ [Event.advanced slot.device],
        event.request ≠ some (.fromParts index slot.generation) :=
      forall_mem_singleton.mpr nofun
    rw [story_append_of_ne hheard] at hcmd
    refine settled_concat (dispatched_of_mem_story (mem_of_getElem? hcmd)) (.inr ?_)
    rw [(htold.issued k command hcmd).deviceId]

end Steps

variable (hmove : Move config policy t events t')
include hmove

theorem Move.settling (hwf : t.Wf config)
    (hpol : policy.epochs = true) (hchron : Chronicle config t history)
    (hchron' : Chronicle config t' (history ++ events)) (hhonest : Honest (history ++ events))
    (h : Settling t history) : Settling t' (history ++ events) := by
  refine ⟨fun i slot' hi hheld => ?_, fun id htaken command hcmd => ?_⟩
  · obtain ⟨slot, hslot, hturn⟩ := hmove.slotTurn hwf hi
    cases hturn with
    | same hevs =>
      exact (h.slots i slot' hslot hheld).append fun event hmem => hevs event hmem _
    | submitted hfree =>
      intro k command hcmd
      have hnone : (commands (story (.fromParts i slot.generation) _))[k]? = some command := hcmd
      rw [story_concat_of_eq history rfl,
        hchron.fresh i slot hslot slot.generation (.inr ⟨rfl, hfree⟩)] at hnone
      cases hnone
    | stepped hstep =>
      have hbef := hstep.goes.before
      exact hstep.settled (h.slots i slot hslot hbef) (hchron.told i slot hslot hbef)
        (hwf.slotOk slot (mem_of_getElem? hslot)) hpol
        ((hmove.wf hwf).slotOk slot' (mem_of_getElem? hi)) hhonest
    | taken =>
      rw [isHeld_takenSlot] at hheld
      cases hheld
  · by_cases hheard : ∃ event ∈ events, event.request = some id
    · obtain ⟨event, hmem, hev⟩ := hheard
      obtain ⟨i, slot, slot', hslot, hslot', rfl, ⟨hheld, hgen⟩ | ⟨out, hterm, -, rfl⟩⟩ :=
        hmove.heard hwf hmem hev
      · rw [← hgen] at htaken
        exact absurd (hchron'.told i slot' hslot' hheld).untaken htaken
      obtain ⟨hheld, hdead⟩ := of_terminal hterm
      rw [story_concat_of_eq history rfl, commands_append] at hcmd
      have hcmd : command ∈ commands (story (.fromParts i slot.generation) history) :=
        (append_nil (commands (story (.fromParts i slot.generation) history))) ▸ hcmd
      obtain ⟨k, hk⟩ := mem_iff_getElem?.mp hcmd
      exact (h.slots i slot hslot hheld k command hk (.inr hdead)).append _
    · rw [story_append_of_ne fun event hmem heq => hheard ⟨event, hmem, heq⟩] at htaken hcmd
      exact (h.taken id htaken command hcmd).append _

/-- A slot holds the request, with its buffer. -/
def Table.Holds (t : Table) (id : BlockRequestId) (request : RequestSpec) : Prop :=
  ∃ i slot, t.slots[i]? = some slot ∧ slot.isHeld = true ∧ id = .fromParts i slot.generation ∧
    slot.spec = request

theorem Move.holds (hwf : t.Wf config) {request : RequestSpec} (h : t.Holds id request) :
    t'.Holds id request ∨ ∃ completion, events = [.taken completion] ∧ completion.id = id := by
  obtain ⟨i, slot, hi, hheld, rfl, rfl⟩ := h
  obtain ⟨slot', hi', hturn⟩ := hmove.slotTurn_of hwf hi
  cases hturn with
  | same => exact .inl ⟨i, slot, hi', hheld, rfl, rfl⟩
  | submitted hfree => exact absurd hfree (not_free_of_isHeld hheld)
  | stepped hstep =>
    have hgoes := hstep.goes
    exact .inl ⟨i, slot', hi', hgoes.after, by rw [hgoes.generation], hgoes.spec⟩
  | taken => exact .inr ⟨_, rfl, rfl⟩

/-- A request that was accepted is held until its completion is taken. -/
def Kept (t : Table) (history : List Event) : Prop :=
  ∀ id request, (id, request) ∈ submissions history →
    t.Holds id request ∨ completions (story id history) ≠ []

theorem Move.kept (hwf : t.Wf config) (h : Kept t history) : Kept t' (history ++ events) := by
  intro id request hmem
  rw [story_append, completions_append]
  rw [submissions_append] at hmem
  rcases mem_append.mp hmem with hold | hnew
  · rcases h id request hold with hholds | htaken
    · refine (hmove.holds hwf hholds).imp_right ?_
      rintro ⟨completion, rfl, rfl⟩
      simp [story, completions, Event.request, Event.completion?]
    · exact .inr fun hnone => htaken (append_eq_nil_iff.mp hnone).1
  · obtain ⟨event, hev, hsubd⟩ := mem_filterMap.mp hnew
    cases hmove with
    | submit hslot =>
      rw [mem_singleton.mp hev] at hsubd
      obtain ⟨rfl, rfl⟩ := Prod.mk.inj (Option.some.inj hsubd)
      exact .inl ⟨_, _, getElem?_set_self (lt_length hslot), rfl, rfl, rfl⟩
    | advance =>
      split at hev
      · cases hev
      · rw [mem_singleton.mp hev] at hsubd
        cases hsubd
    | tune | begin | force | abort => cases hev
    | _ =>
      rw [mem_singleton.mp hev] at hsubd
      cases hsubd

end Ginkgo.Kernel.AsyncBlock
