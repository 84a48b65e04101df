import Ginkgo.Lib.Fallible
import Ginkgo.Lib.Vectors
import Ginkgo.Ipc.Types

/-!
# Signal waiters

One waitable facet retains a bounded list of one-shot waiters.  Notification marks
every waiter whose request meets the current level and then removes the marked ones
one at a time, so that the list itself is the snapshot.
-/

namespace Ginkgo.Ipc

open Ginkgo.Lib Ginkgo.Sysapi List

structure SignalWaiter where
  token : WaitToken
  waitFor : Signals
  observer : ObserverId
  notifying : Bool
  deriving DecidableEq

variable {waiters : List SignalWaiter} {w : SignalWaiter}

def registerSignalWaiter (waiters : List SignalWaiter) (token : WaitToken) (waitFor : Signals)
    (observer : ObserverId) : EStateM Fault Budget (List SignalWaiter) :=
  if waiters.length ≥ waitersPerFacetLimit then throw (.error .waiterLimit)
  else do
    alloc (.error .outOfMemory)
    pure (waiters ++ [⟨token, waitFor, observer, false⟩])

def unregisterSignalWaiter (waiters : List SignalWaiter) (token : WaitToken) : List SignalWaiter :=
  waiters.filter (·.token ≠ token)

def SignalWaiter.mark (current : Signals) (waiter : SignalWaiter) : SignalWaiter :=
  { waiter with notifying := waiter.notifying || Bitflags.intersects current waiter.waitFor }

def markMatchingWaiters (waiters : List SignalWaiter) (current : Signals) : List SignalWaiter :=
  waiters.map (·.mark current)

def takeNotifyingWaiter (waiters : List SignalWaiter) :
    Option (SignalWaiter × List SignalWaiter) := do
  let index ← waiters.findIdx? (·.notifying)
  let waiter ← waiters[index]?
  pure (waiter, swapRemove waiters index)

/-- The removal loop: the waiters taken, in order, and those that stay. -/
def takeNotifyingWaiters : Nat → List SignalWaiter → List SignalWaiter × List SignalWaiter
  | 0, waiters => ([], waiters)
  | fuel + 1, waiters =>
    match takeNotifyingWaiter waiters with
    | none => ([], waiters)
    | some (waiter, rest) =>
      let (taken, retained) := takeNotifyingWaiters fuel rest
      (waiter :: taken, retained)

/-- Both phases of a notification at the level `current`. -/
def notifyWaiters (waiters : List SignalWaiter) (current : Signals) :
    List SignalWaiter × List SignalWaiter :=
  takeNotifyingWaiters waiters.length (markMatchingWaiters waiters current)

theorem takeNotifyingWaiter_none (h : takeNotifyingWaiter waiters = none) :
    ∀ w ∈ waiters, w.notifying = false := by
  cases hfind : waiters.findIdx? (·.notifying) with
  | none => simpa using findIdx?_eq_none_iff.mp hfind
  | some i =>
    obtain ⟨w, hget, -⟩ := exists_of_findIdx? hfind
    simp [takeNotifyingWaiter, hfind, hget] at h

theorem takeNotifyingWaiter_some {rest : List SignalWaiter}
    (h : takeNotifyingWaiter waiters = some (w, rest)) :
    w.notifying = true ∧ waiters.Perm (w :: rest) ∧ rest.length + 1 = waiters.length := by
  cases hfind : waiters.findIdx? (·.notifying) with
  | none => simp [takeNotifyingWaiter, hfind] at h
  | some i =>
    obtain ⟨w, hget, hnotifying⟩ := exists_of_findIdx? hfind
    simp only [takeNotifyingWaiter, hfind, hget, Option.bind_eq_bind, Option.bind_some] at h
    obtain ⟨rfl, rfl⟩ := h
    exact ⟨hnotifying, swapRemove_perm hget, length_swapRemove hget⟩

/-- With enough fuel the loop stops by itself: it takes the marked waiters, all of them,
and loses none. -/
theorem takeNotifyingWaiters_spec (fuel : Nat) (waiters : List SignalWaiter)
    (hfuel : waiters.length ≤ fuel) :
    waiters.Perm ((takeNotifyingWaiters fuel waiters).1 ++ (takeNotifyingWaiters fuel waiters).2) ∧
      (∀ w ∈ (takeNotifyingWaiters fuel waiters).1, w.notifying = true) ∧
      ∀ w ∈ (takeNotifyingWaiters fuel waiters).2, w.notifying = false := by
  induction fuel generalizing waiters with
  | zero =>
    rw [length_eq_zero_iff.mp (Nat.le_zero.mp hfuel)]
    simp [takeNotifyingWaiters]
  | succ fuel ih =>
    unfold takeNotifyingWaiters
    cases htake : takeNotifyingWaiter waiters with
    | none => exact ⟨by simp, by simp, takeNotifyingWaiter_none htake⟩
    | some p =>
      obtain ⟨w, rest⟩ := p
      obtain ⟨hnotifying, hperm, hlen⟩ := takeNotifyingWaiter_some htake
      obtain ⟨hrest, htaken, hretained⟩ := ih rest (by omega)
      refine ⟨hperm.trans (by simpa using hrest.cons w), ?_, hretained⟩
      intro w' hw'
      rcases mem_cons.mp hw' with rfl | hw'
      · exact hnotifying
      · exact htaken w' hw'

theorem mem_notifyWaiters_retained {current : Signals} :
    w ∈ (notifyWaiters waiters current).2 ↔ w ∈ waiters ∧ w.notifying = false ∧
        Bitflags.intersects current w.waitFor = false := by
  obtain ⟨hperm, htaken, hretained⟩ := takeNotifyingWaiters_spec waiters.length
    (markMatchingWaiters waiters current) (by simp [markMatchingWaiters])
  constructor
  · intro hw
    have hmark : w ∈ markMatchingWaiters waiters current :=
      hperm.mem_iff.mpr (mem_append_right _ hw)
    obtain ⟨w', hw', rfl⟩ := mem_map.mp hmark
    have hflag := hretained _ hw
    simp only [SignalWaiter.mark, Bool.or_eq_false_iff] at hflag
    have hself : w'.mark current = w' := by
      simp [SignalWaiter.mark, hflag.2]
    rw [hself]
    exact ⟨hw', hflag⟩
  · rintro ⟨hw, hflag, hlevel⟩
    have hself : w.mark current = w := by
      simp [SignalWaiter.mark, hlevel]
    have hmark : w ∈ markMatchingWaiters waiters current := mem_map.mpr ⟨w, hw, hself⟩
    rcases mem_append.mp (hperm.mem_iff.mp hmark) with htake | hkeep
    · have := htaken w htake
      simp [hflag] at this
    · exact hkeep

theorem mem_notifyWaiters_taken {current : Signals} (hw : w ∈ waiters)
    (hlevel : Bitflags.intersects current w.waitFor = true) :
    w.mark current ∈ (notifyWaiters waiters current).1 := by
  obtain ⟨hperm, -, hretained⟩ := takeNotifyingWaiters_spec waiters.length
    (markMatchingWaiters waiters current) (by simp [markMatchingWaiters])
  have hmark : w.mark current ∈ markMatchingWaiters waiters current := mem_map.mpr ⟨w, hw, rfl⟩
  rcases mem_append.mp (hperm.mem_iff.mp hmark) with htake | hkeep
  · exact htake
  · have hflag := hretained _ hkeep
    simp [SignalWaiter.mark, hlevel] at hflag

theorem wp_registerSignalWaiter {token : WaitToken} {waitFor : Signals} {observer : ObserverId}
    {Q : List SignalWaiter → Budget → Prop} {E : Fault → Budget → Prop} {m : Budget}
    (hQ : ∀ m', Q (waiters ++ [⟨token, waitFor, observer, false⟩]) m')
    (hE : ∀ e m', E (.error e) m') :
    wp (registerSignalWaiter waiters token waitFor observer) Q E m := by
  refine wp_ite (fun _ => wp_throw (hE _ _)) fun _ => ?_
  exact wp_bind (wp_alloc (fun m1 => wp_pure (hQ m1)) (hE _))

/-!
## Control state

The state that the kernel's services share with the handles naming it: processes and
requests, which publish one terminal outcome, the revocable scheduling authority, and
the orderly-shutdown state of the system.
-/

structure ProcessControlState where
  info : ProcessInfo
  terminateRequested : Bool
  terminationObserver : Option (WaitToken × ObserverId)
  waiters : List SignalWaiter
  deriving DecidableEq

def processSignals (state : ProcessControlState) : Signals :=
  if state.info.state = .terminated then Signals.TERMINATED else Signals.empty

namespace ProcessControlState

def new : ProcessControlState :=
  ⟨⟨.running, .none, 0, .none, 0, 0⟩, false, none, []⟩

def exited (exitCode : Int) : ProcessInfo := ⟨.terminated, .exited, exitCode, .none, 0, 0⟩

def faulted (fault : ProcessFault) (faultCode faultAddress : Nat) : ProcessInfo :=
  ⟨.terminated, .faulted, 0, fault, faultCode, faultAddress⟩

def terminated : ProcessInfo := ⟨.terminated, .terminated, 0, .none, 0, 0⟩

end ProcessControlState

structure RequestControlState where
  requestId : Nat
  info : RequestInfo
  cancelRequested : Bool
  waiters : List SignalWaiter
  deriving DecidableEq

def requestStateIsNonterminal : Option RequestState → Bool
  | some .pending | some .active | some .cancelPending | some .completing => true
  | _ => false

def requestStateIsTerminal : Option RequestState → Bool
  | some .completed | some .timedOut | some .canceled | some .failed
  | some .ownerTerminated => true
  | _ => false

def requestSignals (state : RequestControlState) : Signals :=
  if requestStateIsTerminal state.info.requestState then Signals.SIGNALED else Signals.empty

/-- What a name that was not allocated yet stands for. -/
def RequestControlState.unallocated : RequestControlState :=
  ⟨0, ⟨0, 0, 0, 0, 0, 0, 0, 0, 0, 0, 0, 0, 0, 0⟩, false, []⟩

structure SchedulingAuthorityState where
  maximumClass : ThreadSchedulingClass
  active : Bool
  generation : Nat
  deriving DecidableEq, Repr

namespace SchedulingAuthorityState

def activate (state : SchedulingAuthorityState) : SchedulingAuthorityState :=
  if !state.active then
    { state with active := true, generation := saturatingAdd state.generation 1 }
  else state

def revoke (state : SchedulingAuthorityState) : SchedulingAuthorityState :=
  if state.active then
    { state with active := false, generation := saturatingAdd state.generation 1 }
  else state

def authorize (state : SchedulingAuthorityState) (requested : ThreadSchedulingClass) :
    Except IpcError Unit :=
  if !state.active then .error .accessDenied
  else
    let allowed : Bool :=
      match state.maximumClass with
      | .audio => requested == .audio || requested == .interactive
      | .interactive => requested == .interactive
      | .critical | .normal | .background => false
    if allowed then .ok () else .error .accessDenied

end SchedulingAuthorityState

namespace SystemPowerControl

def request (info : SystemPowerInfo) (action : SystemPowerAction) (flags : SystemPowerFlags)
    (deadlineNs : Nat) : Except IpcError SystemPowerInfo :=
  if !Bitflags.contains SystemPowerFlags.all flags then .error .invalidMessage
  else
    match info.state with
    | .idle | .canceled | .failed =>
      .ok {
        state := .requested
        action := some action
        flags := flags
        failureStatus := none
        sequence := (info.sequence + 1) % 2 ^ 64
        deadlineNs := deadlineNs }
    | _ => .error .alreadyExists

def cancel (info : SystemPowerInfo) : Except IpcError SystemPowerInfo :=
  if info.state ≠ .requested then .error .accessDenied
  else .ok { info with state := .canceled, deadlineNs := 0 }

/-- `none` when the state is not the expected one and the transition reports `false`. -/
def transition (info : SystemPowerInfo) (expected next : SystemPowerState) (deadlineNs : Nat) :
    Option SystemPowerInfo :=
  if info.state ≠ expected then none
  else some { info with state := next, deadlineNs := deadlineNs }

def beginQuiescing (info : SystemPowerInfo) (deadlineNs : Nat) : Option SystemPowerInfo :=
  transition info .requested .quiescing deadlineNs

def beginSynchronizing (info : SystemPowerInfo) : Option SystemPowerInfo :=
  transition info .quiescing .synchronizing 0

def beginCommitting (info : SystemPowerInfo) (deadlineNs : Nat) : Option SystemPowerInfo :=
  transition info .synchronizing .committing deadlineNs

def fail (info : SystemPowerInfo) (status : Status) : SystemPowerInfo :=
  { info with state := .failed, failureStatus := some status, deadlineNs := 0 }

end SystemPowerControl

end Ginkgo.Ipc
