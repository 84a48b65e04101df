import Ginkgo.Kernel.WaitRuntime

/-!
# What the wait runtime is for

A pool holds the waits by their tokens, the tokens that were used up and the queue of
those that were notified.  A token is used up by one cancellation or one wake, a
notification joins the queue once, and a wake takes the queue before the deadlines.

The second half says what follows for every run of a pool: each registered token is used
up at most once, and a notified one leaves the queue before any deadline does.
-/

namespace Ginkgo.Kernel

open Ginkgo.Ipc Ginkgo.Lib List

variable {K : Type}

structure Wait (K : Type) where
  key : K
  kind : WaitKind
  deadlineNs : Option Nat
  deriving DecidableEq

/-- The wake that a wait gets. -/
def Wait.wake (wait : Wait K) (token : WaitToken) (cause : WakeCause) : WaitWake K :=
  ⟨token, wait.key, wait.kind, cause, wait.deadlineNs⟩

/-- What a call did, as its reply tells. -/
inductive WaitEvent (K : Type)
  | registered (token : WaitToken) (wait : Wait K)
  | refused
  | notified (token : WaitToken) (cause : WakeCause)
  | stale (token : WaitToken)
  | cancelled (token : WaitToken)
  | unknownKey (key : K)
  | woke (nowNs : Nat) (wake : WaitWake K)
  | idle (nowNs : Nat)
  deriving DecidableEq

namespace WaitEvent

def registration : WaitEvent K → Option WaitToken
  | .registered token _ => some token
  | _ => none

/-- The token that a cancellation or a wake uses up. -/
def consumption : WaitEvent K → Option WaitToken
  | .cancelled token => some token
  | .woke _ wake => some wake.token
  | _ => none

/-- Is the event a reply of `next_wake`? -/
def isDispatch : WaitEvent K → Bool
  | .woke _ _ => true
  | .idle _ => true
  | _ => false

/-- A reply of `next_wake` other than the wake of a notified wait. -/
def overtakes : WaitEvent K → Bool
  | .woke _ wake => wake.cause = .deadline
  | .idle _ => true
  | _ => false

end WaitEvent

def registrations (history : List (WaitEvent K)) : List WaitToken :=
  history.filterMap WaitEvent.registration

def consumptions (history : List (WaitEvent K)) : List WaitToken :=
  history.filterMap WaitEvent.consumption

/-- Registered, and not used up since. -/
def Waiting (history : List (WaitEvent K)) (token : WaitToken) (wait : Wait K) : Prop :=
  .registered token wait ∈ history ∧ token ∉ consumptions history

def Notified (history : List (WaitEvent K)) (token : WaitToken) : Prop :=
  ∃ cause, .notified token cause ∈ history

theorem registrations_append (history history' : List (WaitEvent K)) :
    registrations (history ++ history') = registrations history ++ registrations history' :=
  filterMap_append

theorem consumptions_append (history history' : List (WaitEvent K)) :
    consumptions (history ++ history') = consumptions history ++ consumptions history' :=
  filterMap_append

structure Pool (K : Type) where
  active : WaitToken → Option (Wait K)
  spent : Set WaitToken
  ready : List ReadyRecord

namespace Pool

variable {p : Pool K} {record : ReadyRecord} {ahead : Nat}

/-- The pool without the wait of a token that was used up. -/
def remove (token : WaitToken) (p : Pool K) : Pool K where
  active := Function.update p.active token none
  spent := insert token p.spent
  ready := p.ready.filter fun record => record.token ≠ token

/-- The reply to a dispatch at `nowNs`. -/
inductive Wakes (nowNs : Nat) (p : Pool K) : Option (WaitWake K) → Prop
  | ready {record : ReadyRecord} {rest : List ReadyRecord} {wait : Wait K}
      (hready : p.ready = record :: rest) (hactive : p.active record.token = some wait) :
      Wakes nowNs p (some (wait.wake record.token record.cause))
  | deadline {token : WaitToken} {wait : Wait K} {deadlineNs : Nat} (hready : p.ready = [])
      (hactive : p.active token = some wait) (hdeadline : wait.deadlineNs = some deadlineNs)
      (hdue : deadlineNs ≤ nowNs)
      (hfirst : ∀ token' wait' deadlineNs', p.active token' = some wait' →
        wait'.deadlineNs = some deadlineNs' →
        toLex (deadlineNs, token.raw) ≤ toLex (deadlineNs', token'.raw)) :
      Wakes nowNs p (some (wait.wake token .deadline))
  | none (hready : p.ready = []) (hnone : ∀ token wait deadlineNs, p.active token = some wait →
        wait.deadlineNs = some deadlineNs → nowNs < deadlineNs) :
      Wakes nowNs p none

inductive Step : Pool K → List (WaitEvent K) → Pool K → Prop
  | registered {p : Pool K} {token : WaitToken} (wait : Wait K) (hactive : p.active token = none)
      (hspent : token ∉ p.spent) :
      Step p [.registered token wait]
        { p with active := Function.update p.active token (some wait) }
  | refused {p : Pool K} : Step p [.refused] p
  | notified {p : Pool K} {token : WaitToken} {cause : WakeCause} {wait : Wait K}
      (hactive : p.active token = some wait) (hcause : cause ≠ .deadline)
      (hqueued : token ∉ p.ready.map (·.token)) :
      Step p [.notified token cause] { p with ready := p.ready ++ [⟨token, cause⟩] }
  | coalesced {p : Pool K} {token : WaitToken} {cause : WakeCause} {wait : Wait K}
      (hactive : p.active token = some wait) (hqueued : token ∈ p.ready.map (·.token)) :
      Step p [.notified token cause] p
  | stale {p : Pool K} {token : WaitToken} (hactive : p.active token = none) :
      Step p [.stale token] p
  | cancelled {p : Pool K} {token : WaitToken} {wait : Wait K}
      (hactive : p.active token = some wait) : Step p [.cancelled token] (p.remove token)
  | unknownKey {p : Pool K} {key : K}
      (hnone : ∀ token wait, p.active token = some wait → wait.key ≠ key) :
      Step p [.unknownKey key] p
  | woke {p : Pool K} {nowNs : Nat} {wake : WaitWake K} (hwake : p.Wakes nowNs (some wake)) :
      Step p [.woke nowNs wake] (p.remove wake.token)
  | idle {p : Pool K} {nowNs : Nat} (hwake : p.Wakes nowNs none) : Step p [.idle nowNs] p

/-- No wait was ever registered. -/
def empty : Pool K := ⟨fun _ => none, ∅, []⟩

/-! ## Runs -/

/-- How the pool reflects the history of the run that led to it. -/
structure Reflects (history : List (WaitEvent K)) (p : Pool K) : Prop where
  registrations_nodup : (registrations history).Nodup
  consumptions_nodup : (consumptions history).Nodup
  active_iff : ∀ token wait, p.active token = some wait ↔ Waiting history token wait
  spent_iff : ∀ token, token ∈ p.spent ↔ token ∈ consumptions history
  consumed_registered : ∀ token ∈ consumptions history, token ∈ registrations history
  ready_nodup : (p.ready.map (·.token)).Nodup
  ready_iff : ∀ token, token ∈ p.ready.map (·.token) ↔
    (∃ wait, Waiting history token wait) ∧ Notified history token
  notified_registered : ∀ token, Notified history token → token ∈ registrations history
  ready_cause : ∀ record ∈ p.ready, record.cause ≠ .deadline

theorem mem_registrations {history : List (WaitEvent K)} {token : WaitToken} :
    token ∈ registrations history ↔ ∃ wait, .registered token wait ∈ history := by
  unfold registrations
  rw [mem_filterMap]
  constructor
  · rintro ⟨event, hmem, hev⟩
    cases event <;> simp only [WaitEvent.registration, reduceCtorEq, Option.some.injEq] at hev
    subst hev
    exact ⟨_, hmem⟩
  · rintro ⟨wait, hmem⟩
    exact ⟨_, hmem, rfl⟩

theorem reflects_empty : Reflects [] (empty : Pool K) := by
  constructor <;> simp [registrations, consumptions, Waiting, Notified, empty]

section Append

variable {history : List (WaitEvent K)} {event : WaitEvent K} {token : WaitToken} {wait : Wait K}
  {p : Pool K}

theorem waiting_append : Waiting (history ++ [event]) token wait ↔
      (.registered token wait ∈ history ∨ event = .registered token wait) ∧
        token ∉ consumptions history ∧ event.consumption ≠ some token := by
  have hlast : token ∈ consumptions [event] ↔ event.consumption = some token := by
    simp only [consumptions, mem_filterMap, mem_singleton, exists_eq_left]
  unfold Waiting
  rw [consumptions_append, mem_append, mem_append, hlast, mem_singleton, not_or,
    eq_comm]

theorem notified_append : Notified (history ++ [event]) token ↔
      Notified history token ∨ ∃ cause, event = .notified token cause := by
  simp only [Notified, mem_append, mem_singleton, exists_or, eq_comm]

variable (h : Reflects history p)
include h

theorem Reflects.unused (hregistration : event.registration = none)
    (hconsumption : event.consumption = none) {ready : List ReadyRecord}
    (hnodup : (ready.map (·.token)).Nodup) (hready : ∀ token, token ∈ ready.map (·.token) ↔
      token ∈ p.ready.map (·.token) ∨ ∃ cause, event = .notified token cause)
    (hnotif : ∀ token cause, event = .notified token cause → ∃ wait, Waiting history token wait)
    (hcause : ∀ record ∈ ready, record.cause ≠ .deadline) :
    Reflects (history ++ [event]) { p with ready := ready } := by
  have hregs : registrations (history ++ [event]) = registrations history := by
    simp [registrations, hregistration]
  have hcons : consumptions (history ++ [event]) = consumptions history := by
    simp [consumptions, hconsumption]
  have hwaiting token wait :
      Waiting (history ++ [event]) token wait ↔ Waiting history token wait := by
    rw [waiting_append, hconsumption]
    have hne : event ≠ .registered token wait := by
      rintro rfl
      cases hregistration
    simp [Waiting, hne]
  constructor
  · rw [hregs]
    exact h.registrations_nodup
  · rw [hcons]
    exact h.consumptions_nodup
  · intro token wait
    rw [hwaiting]
    exact h.active_iff token wait
  · intro token
    rw [hcons]
    exact h.spent_iff token
  · rw [hcons, hregs]
    exact h.consumed_registered
  · exact hnodup
  · intro token
    simp only [hready, h.ready_iff, notified_append, hwaiting]
    constructor
    · rintro (⟨hwait, hn⟩ | ⟨cause, heq⟩)
      · exact ⟨hwait, .inl hn⟩
      · exact ⟨hnotif token cause heq, .inr ⟨cause, heq⟩⟩
    · rintro ⟨hwait, hn | hnew⟩
      · exact .inl ⟨hwait, hn⟩
      · exact .inr hnew
  · intro token hn
    rw [hregs]
    rcases notified_append.mp hn with hn | ⟨cause, heq⟩
    · exact h.notified_registered token hn
    · obtain ⟨wait, hwait⟩ := hnotif token cause heq
      exact mem_registrations.mpr ⟨wait, hwait.1⟩
  · exact hcause

theorem Reflects.quiet (hregistration : event.registration = none)
    (hconsumption : event.consumption = none)
    (hnotif : ∀ token cause, event = .notified token cause → token ∈ p.ready.map (·.token)) :
    Reflects (history ++ [event]) p :=
  h.unused hregistration hconsumption h.ready_nodup
    (fun token => ⟨.inl, fun hor => hor.elim id fun ⟨cause, heq⟩ => hnotif token cause heq⟩)
    (fun token cause heq => ((h.ready_iff token).mp (hnotif token cause heq)).1) h.ready_cause

theorem Reflects.registered (hact : p.active token = none) (hspent : token ∉ p.spent) :
    Reflects (history ++ [.registered token wait])
      { p with active := Function.update p.active token (some wait) } := by
  have hfresh : token ∉ registrations history := by
    intro hmem
    obtain ⟨wait', hmem⟩ := mem_registrations.mp hmem
    have hwaiting : Waiting history token wait' :=
      ⟨hmem, fun hcons => hspent ((h.spent_iff token).mpr hcons)⟩
    rw [(h.active_iff token wait').mpr hwaiting] at hact
    cases hact
  have hconsumptions : consumptions (history ++ [.registered token wait]) =
      consumptions history := by
    rw [consumptions_append]
    exact append_nil _
  have hregs : registrations (history ++ [.registered token wait]) =
      registrations history ++ [token] := by
    rw [registrations_append]
    rfl
  have hwaiting token' wait' (hne : token' ≠ token) :
      Waiting (history ++ [.registered token wait]) token' wait' ↔
        Waiting history token' wait' := by
    rw [waiting_append]
    simp [Waiting, WaitEvent.consumption, hne.symm]
  have hnotif token' :
      Notified (history ++ [.registered token wait]) token' ↔ Notified history token' := by
    rw [notified_append]
    simp
  constructor
  · rw [hregs]
    exact nodup_append.mpr ⟨h.registrations_nodup, nodup_singleton _, by
      rintro a ha b hb rfl
      exact hfresh (mem_singleton.mp hb ▸ ha)⟩
  · rw [hconsumptions]
    exact h.consumptions_nodup
  · intro token' wait'
    by_cases heq : token' = token
    · subst heq
      simp only [Function.update_self]
      rw [waiting_append]
      have hnot : .registered token' wait' ∉ history :=
        fun hmem => hfresh (mem_registrations.mpr ⟨_, hmem⟩)
      have hcons : token' ∉ consumptions history :=
        fun hmem => hfresh (h.consumed_registered _ hmem)
      simp [hnot, hcons, WaitEvent.consumption]
    · simp only [Function.update_of_ne heq]
      rw [hwaiting _ _ heq]
      exact h.active_iff token' wait'
  · intro token'
    rw [hconsumptions]
    exact h.spent_iff token'
  · rw [hconsumptions, hregs]
    exact fun token' hmem => mem_append_left _ (h.consumed_registered _ hmem)
  · exact h.ready_nodup
  · intro token'
    rw [hnotif]
    by_cases heq : token' = token
    · subst heq
      have hnot : ¬Notified history token' := fun hn => hfresh (h.notified_registered _ hn)
      have hready : token' ∉ p.ready.map (·.token) :=
        fun hmem => hnot ((h.ready_iff token').mp hmem).2
      exact ⟨fun hmem => absurd hmem hready, fun hand => absurd hand.2 hnot⟩
    · simp only [hwaiting _ _ heq]
      exact h.ready_iff token'
  · intro token' hn
    rw [hregs]
    exact mem_append_left _ (h.notified_registered _ ((hnotif _).mp hn))
  · exact h.ready_cause

theorem Reflects.notified {cause : WakeCause}
    (hact : p.active token = some wait) (hcause : cause ≠ .deadline)
    (hqueued : token ∉ p.ready.map (·.token)) :
    Reflects (history ++ [.notified token cause])
      { p with ready := p.ready ++ [⟨token, cause⟩] } := by
  refine h.unused rfl rfl ?_ (fun token' => ?_) ?_ fun record hmem => ?_
  · rw [map_append, nodup_append]
    refine ⟨h.ready_nodup, nodup_singleton _, ?_⟩
    rintro a ha b hb rfl
    rw [mem_singleton.mp hb] at ha
    exact hqueued ha
  · simp [eq_comm]
  · rintro _ _ ⟨⟩
    exact ⟨wait, (h.active_iff token wait).mp hact⟩
  · rcases mem_append.mp hmem with hmem | hmem
    · exact h.ready_cause record hmem
    · rw [mem_singleton.mp hmem]
      exact hcause

theorem Reflects.consumed (hact : p.active token = some wait)
    (hconsumption : event.consumption = some token) (hregistration : event.registration = none) :
    Reflects (history ++ [event]) (p.remove token) := by
  have hself : Waiting history token wait := (h.active_iff token wait).mp hact
  have hcons : consumptions (history ++ [event]) = consumptions history ++ [token] := by
    simp [consumptions, hconsumption]
  have hregs : registrations (history ++ [event]) = registrations history := by
    simp [registrations, hregistration]
  have hwaiting token' wait' : Waiting (history ++ [event]) token' wait' ↔
        Waiting history token' wait' ∧ token' ≠ token := by
    rw [waiting_append, hconsumption]
    have hne : event ≠ .registered token' wait' := by
      rintro rfl
      cases hconsumption
    simp [Waiting, hne, and_assoc, eq_comm]
  have hnotif token' :
      Notified (history ++ [event]) token' ↔ Notified history token' := by
    rw [notified_append]
    refine ⟨fun hor => hor.elim id ?_, .inl⟩
    rintro ⟨cause, rfl⟩
    cases hconsumption
  constructor
  · rw [hregs]
    exact h.registrations_nodup
  · rw [hcons, nodup_append]
    refine ⟨h.consumptions_nodup, nodup_singleton _, ?_⟩
    rintro a ha b hb rfl
    exact hself.2 (mem_singleton.mp hb ▸ ha)
  · intro token' wait'
    rw [hwaiting, ← h.active_iff]
    by_cases heq : token' = token
    · subst heq
      simp [remove]
    · simp [remove, heq]
  · intro token'
    rw [hcons, mem_append, ← h.spent_iff]
    simp [remove, or_comm]
  · intro token' hmem
    rw [hregs]
    rw [hcons, mem_append, mem_singleton] at hmem
    rcases hmem with hmem | rfl
    · exact h.consumed_registered _ hmem
    · exact mem_registrations.mpr ⟨wait, hself.1⟩
  · exact h.ready_nodup.sublist (filter_sublist.map _)
  · intro token'
    simp only [hwaiting, hnotif]
    have hmem : token' ∈ (p.remove token).ready.map (·.token) ↔
        token' ∈ p.ready.map (·.token) ∧ token' ≠ token := by
      simp only [remove, mem_map, mem_filter, decide_eq_true_eq]
      constructor
      · rintro ⟨record, ⟨hrecord, hne⟩, rfl⟩
        exact ⟨⟨record, hrecord, rfl⟩, hne⟩
      · rintro ⟨⟨record, hrecord, rfl⟩, hne⟩
        exact ⟨record, ⟨hrecord, hne⟩, rfl⟩
    rw [hmem, h.ready_iff]
    constructor
    · rintro ⟨⟨⟨wait', hwait⟩, hn⟩, hne⟩
      exact ⟨⟨wait', hwait, hne⟩, hn⟩
    · rintro ⟨⟨wait', hwait, hne⟩, hn⟩
      exact ⟨⟨⟨wait', hwait⟩, hn⟩, hne⟩
  · intro token' hn
    rw [hregs]
    exact h.notified_registered _ ((hnotif _).mp hn)
  · exact fun record hmem => h.ready_cause record (mem_of_mem_filter hmem)

end Append

theorem Wakes.active {now : Nat} {wake : WaitWake K} (h : p.Wakes now (some wake)) :
    ∃ wait, p.active wake.token = some wait ∧ wake = wait.wake wake.token wake.cause := by
  cases h with
  | ready _ hact => exact ⟨_, hact, rfl⟩
  | deadline _ hact => exact ⟨_, hact, rfl⟩

theorem Step.reflects {history events : List (WaitEvent K)} (h : Reflects history p)
    (hstep : Step p events p') : Reflects (history ++ events) p' := by
  cases hstep with
  | registered wait hact hspent => exact h.registered hact hspent
  | refused | stale | unknownKey | idle => exact h.quiet rfl rfl (fun _ _ heq => by cases heq)
  | notified hact hcause hqueued => exact h.notified hact hcause hqueued
  | coalesced hact hqueued =>
    refine h.quiet rfl rfl (fun _ _ heq => ?_)
    cases heq
    exact hqueued
  | cancelled hact => exact h.consumed hact rfl rfl
  | woke hwake =>
    obtain ⟨wait, hact, -⟩ := hwake.active
    exact h.consumed hact rfl rfl

theorem run_reflects {history : List (WaitEvent K)} (h : Star Step empty history p) :
    Reflects history p :=
  h.invariant reflects_empty fun _ _ _ _ hrefl hstep => hstep.reflects hrefl

/-- `record` is in the queue, and at most `ahead` others are before it. -/
def Queued (p : Pool K) (record : ReadyRecord) (ahead : Nat) : Prop :=
  ∃ before after, p.ready = before ++ record :: after ∧ before.length ≤ ahead

/-- The history hands the record's wait over, and nothing overtakes it before. -/
def Served (history : List (WaitEvent K)) (record : ReadyRecord) : Prop :=
  ∃ before nowNs wake after, history = before ++ .woke nowNs wake :: after ∧
    wake.token = record.token ∧ wake.cause = record.cause ∧
    ∀ event ∈ before, event.overtakes = false

def dispatches (history : List (WaitEvent K)) : Nat := history.countP WaitEvent.isDispatch

/-- Removing another token moves a record towards the head of the queue. -/
theorem Queued.remove (h : p.Queued record ahead) {token : WaitToken} (hne : record.token ≠ token) :
    (p.remove token).Queued record ahead := by
  obtain ⟨before, after, hready, hlen⟩ := h
  refine ⟨before.filter (·.token ≠ token), after.filter (·.token ≠ token), ?_,
    (length_filter_le _ _).trans hlen⟩
  simp only [Pool.remove, hready, filter_append]
  rw [filter_cons_of_pos (by simpa using hne)]

theorem Queued.remove_head {head : ReadyRecord} {rest : List ReadyRecord}
    (hready : p.ready = head :: rest) (h : p.Queued record (ahead + 1))
    (hne : record.token ≠ head.token) : (p.remove head.token).Queued record ahead := by
  obtain ⟨before, after, hsplit, hlen⟩ := h
  rw [hready] at hsplit
  cases before with
  | nil =>
    cases hsplit
    exact absurd rfl hne
  | cons first before =>
    rw [cons_append] at hsplit
    obtain ⟨rfl, hrest⟩ := cons.inj hsplit
    refine ⟨before.filter (·.token ≠ head.token), after.filter (·.token ≠ head.token), ?_,
      (length_filter_le _ _).trans (Nat.le_of_succ_le_succ hlen)⟩
    simp only [Pool.remove, hready, hrest]
    rw [filter_cons_of_neg (by simp), filter_append, filter_cons_of_pos (by simpa using hne)]

/-- What one step does to a record of the queue. -/
theorem Step.queued {history events : List (WaitEvent K)} (h : Reflects history p)
    (hqueued : p.Queued record ahead) (hstep : Step p events p')
    (hcanc : .cancelled record.token ∉ events) :
    Served events record ∨ (∀ event ∈ events, event.overtakes = false) ∧
      ∃ ahead', p'.Queued record ahead' ∧ ahead' + dispatches events ≤ ahead := by
  have hready : p.ready ≠ [] := by
    obtain ⟨before, after, hsplit, -⟩ := hqueued
    rw [hsplit]
    simp
  cases hstep with
  | registered | refused | coalesced | stale | unknownKey =>
    exact .inr ⟨by simp [WaitEvent.overtakes], ahead, hqueued, le_rfl⟩
  | @notified token cause =>
    refine .inr ⟨by simp [WaitEvent.overtakes], ahead, ?_, le_rfl⟩
    obtain ⟨before, after, hsplit, hlen⟩ := hqueued
    refine ⟨before, after ++ [⟨token, cause⟩], ?_, hlen⟩
    simp only [hsplit, append_assoc, cons_append]
  | cancelled =>
    refine .inr ⟨by simp [WaitEvent.overtakes], ahead, hqueued.remove ?_, le_rfl⟩
    rintro rfl
    exact hcanc (mem_singleton_self _)
  | woke hwake =>
    cases hwake with
    | deadline hnone => exact absurd hnone hready
    | @ready head rest wait hsplit hact =>
      by_cases heq : head = record
      · subst heq
        exact .inl ⟨[], _, _, [], rfl, rfl, rfl, by simp⟩
      have hne : record.token ≠ head.token := by
        intro htok
        apply heq
        have hnodup := h.ready_nodup
        rw [nodup_map_iff_inj_on (List.Nodup.of_map _ hnodup)] at hnodup
        obtain ⟨before, after, hsplit', -⟩ := hqueued
        exact hnodup head (by simp [hsplit]) record (by simp [hsplit']) htok.symm
      have hcause : head.cause ≠ .deadline := h.ready_cause head (by simp [hsplit])
      refine .inr ⟨by simp [WaitEvent.overtakes, Wait.wake, hcause], ?_⟩
      obtain ⟨before, after, hsplit', hlen⟩ := id hqueued
      cases ahead with
      | zero =>
        rw [length_eq_zero_iff.mp (Nat.le_zero.mp hlen), hsplit] at hsplit'
        cases hsplit'
        exact absurd rfl heq
      | succ ahead =>
        exact ⟨ahead, Queued.remove_head hsplit hqueued hne, by
          simp [dispatches, WaitEvent.isDispatch]⟩
  | idle hwake =>
    cases hwake with
    | none hnone => exact absurd hnone hready

/-- A record of the queue is served after at most as many dispatches as it has records ahead
of it, unless it is cancelled, and no deadline comes before it. -/
theorem run_queued {history later : List (WaitEvent K)} (h : Reflects history p)
    (hqueued : p.Queued record ahead) (hrun : Star Step p later p')
    (hcanc : .cancelled record.token ∉ later) :
    Served later record ∨ (∀ event ∈ later, event.overtakes = false) ∧
      ∃ ahead', p'.Queued record ahead' ∧ ahead' + dispatches later ≤ ahead := by
  suffices hboth : Reflects (history ++ later) p' ∧ (Served later record ∨
      (∀ event ∈ later, event.overtakes = false) ∧
        ∃ ahead', p'.Queued record ahead' ∧ ahead' + dispatches later ≤ ahead) from hboth.2
  induction hrun with
  | refl =>
    rw [append_nil]
    exact ⟨h, .inr ⟨by simp, ahead, hqueued, le_rfl⟩⟩
  | @tail s s' past events hrun hstep ih =>
    obtain ⟨hrefl, ih⟩ := ih fun hmem => hcanc (mem_append_left _ hmem)
    rw [← append_assoc]
    refine ⟨hstep.reflects hrefl, ?_⟩
    rcases ih with ⟨before, now, wake, after, rfl, htok, hcause, hbef⟩ | ⟨hpast, ih⟩
    · exact .inl ⟨before, now, wake, after ++ events, by simp, htok, hcause, hbef⟩
    obtain ⟨ahead', hqueued', hle⟩ := ih
    rcases hstep.queued hrefl hqueued'
        (fun hmem => hcanc (mem_append_right _ hmem)) with hserved | ⟨hnow, hnext⟩
    · obtain ⟨before, now, wake, after, rfl, htok, hcause, hbef⟩ := hserved
      refine .inl ⟨past ++ before, now, wake, after, by simp, htok, hcause, ?_⟩
      exact fun event hmem => (mem_append.mp hmem).elim (hpast event) (hbef event)
    · obtain ⟨ahead'', hqueued'', hle'⟩ := hnext
      refine .inr ⟨?_, ahead'', hqueued'', ?_⟩
      · exact fun event hmem => (mem_append.mp hmem).elim (hpast event) (hnow event)
      · unfold dispatches at hle hle' ⊢
        rw [countP_append]
        omega

end Pool

end Ginkgo.Kernel
