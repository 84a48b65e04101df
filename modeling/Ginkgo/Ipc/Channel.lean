import Ginkgo.Lib.Graph
import Ginkgo.Ipc.Control
import Mathlib.Algebra.Order.BigOperators.Group.Finset

/-!
# Channel state

The two-ended state behind a pair of channel endpoints, and the search that keeps
messages from carrying a channel into itself.  The search clones its way through the
queues of other channels, taking one lock at a time, while its caller holds the lock of
the destination.
-/

namespace Ginkgo.Ipc

open Ginkgo.Lib Ginkgo.Sysapi List

/-- A message: its bytes, the room allocated for them, and the references it carries. -/
structure KernelMessage where
  bytes : List UInt8
  capacity : Nat
  handles : List HandleEntry
  deriving DecidableEq, Repr

def KernelMessage.empty : KernelMessage := ⟨[], 0, []⟩

structure ChannelState where
  isOpen : Sided Bool
  queues : Sided (List KernelMessage)
  freeMessages : Sided (List KernelMessage)
  waiters : Sided (List SignalWaiter)
  deriving DecidableEq

namespace ChannelState

def new : ChannelState := ⟨.both true, .both [], .both [], .both []⟩

/-- What a name that was not allocated yet stands for. -/
def unallocated : ChannelState := ⟨.both false, .both [], .both [], .both []⟩

def withQueue (state : ChannelState) (side : Side) (queue : List KernelMessage) :
    ChannelState :=
  { state with queues := state.queues.set side queue }

def withFreeMessages (state : ChannelState) (side : Side) (messages : List KernelMessage) :
    ChannelState :=
  { state with freeMessages := state.freeMessages.set side messages }

def withWaiters (state : ChannelState) (side : Side) (waiters : List SignalWaiter) :
    ChannelState :=
  { state with waiters := state.waiters.set side waiters }

/-- The state change of an endpoint's destructor: no one can read this side any more. -/
def close (state : ChannelState) (side : Side) : ChannelState :=
  { state with isOpen := state.isOpen.set side false, queues := state.queues.set side [] }

/-- Every reference carried by a queued message, in the order the search meets them. -/
def carried (state : ChannelState) : List HandleEntry :=
  (state.queues.left ++ state.queues.right).flatMap (·.handles)

end ChannelState

def channelSignals (state : ChannelState) (side : Side) : Signals :=
  let peer := side.peer
  (if state.queues.get side ≠ [] then Signals.READABLE else Signals.empty) |||
    if !state.isOpen.get peer then Signals.PEER_CLOSED
    else if (state.queues.get peer).length < channelQueueCapacity then Signals.WRITABLE
    else Signals.empty

/-- The channel that a reference is an endpoint of. -/
def HandleEntry.channel? (entry : HandleEntry) : Option ChannelId :=
  match entry.object.kernel with
  | .channel state _ => some state
  | _ => none

theorem channel?_eq_some {entry : HandleEntry} {st : ChannelId} :
    entry.channel? = some st ↔ ∃ side, entry.object.kernel = .channel st side := by
  unfold HandleEntry.channel?
  split
  · rename_i st' side hker
    simp [hker]
  rename_i hother
  constructor
  · intro h
    cases h
  · rintro ⟨side, hker⟩
    exact absurd hker (hother st side)

/-! ## Cycle detection -/

/-- Channels with an endpoint queued in `state`. -/
def ChannelState.outgoing (state : ChannelState) : List ChannelId :=
  state.carried.filterMap (·.channel?)

/-- Clone the outgoing references one by one, reserving room for each. -/
def collectOutgoing : List HandleEntry → EStateM Fault Budget (List ChannelId)
  | [] => pure []
  | entry :: rest =>
    match entry.channel? with
    | none => collectOutgoing rest
    | some state => do
      alloc (.error .outOfMemory)
      let outgoing ← collectOutgoing rest
      pure (state :: outgoing)

/-- Read the queues of `candidate` under its lock, while the caller holds `held`. -/
def lockedOutgoing (channels : ChannelId → ChannelState) (held candidate : ChannelId) :
    EStateM Fault Budget (List ChannelId) :=
  if candidate = held then throw .deadlocked
  else collectOutgoing (channels candidate).carried

/-- The search loop.  The worklist is a stack whose top is the head of `pending`. -/
def reachLoop (channels : ChannelId → ChannelState) (destination held : ChannelId) :
    Nat → List ChannelId → List ChannelId → EStateM Fault Budget (Bool × List ChannelId)
  | 0, _, _ => throw .diverged
  | _ + 1, [], visited => pure (false, visited)
  | fuel + 1, candidate :: pending, visited =>
    if candidate = destination then pure (true, visited)
    else if candidate ∈ visited then reachLoop channels destination held fuel pending visited
    else do
      alloc (.error .outOfMemory)
      let outgoing ← lockedOutgoing channels held candidate
      allocCapacity (.error .outOfMemory) outgoing.length
      reachLoop channels destination held fuel (outgoing.reverse ++ pending)
        (visited ++ [candidate])

/-- Does `object` own `destination`, directly or through queued messages?  Also returns
the channels visited, which the next search of the same write skips. -/
def objectReachesChannel (channels : Heap ChannelState) (object : Object)
    (destination held : ChannelId) (visited : List ChannelId) :
    EStateM Fault Budget (Bool × List ChannelId) :=
  match object.kernel with
  | .channel state _ => do
    alloc (.error .outOfMemory)
    let fuel := 2 + ∑ c ∈ Finset.range channels.next, (channels.cell c).outgoing.length
    reachLoop channels.cell destination held fuel [state] visited
  | _ => pure (false, visited)

variable {E : Fault → Budget → Prop}

theorem wp_collectOutgoing {entries : List HandleEntry}
    {Q : List ChannelId → Budget → Prop} {m : Budget}
    (hQ : ∀ m', Q (entries.filterMap (·.channel?)) m') (hE : ∀ e m', E (.error e) m') :
    wp (collectOutgoing entries) Q E m := by
  induction entries generalizing Q m with
  | nil => exact wp_pure (hQ m)
  | cons entry rest ih =>
    unfold collectOutgoing
    cases hc : entry.channel? with
    | none =>
      refine ih fun m' => ?_
      simpa only [filterMap_cons_none hc] using hQ m'
    | some st =>
      refine wp_bind (wp_alloc (fun m1 => wp_bind (ih fun m2 => wp_pure ?_)) (hE _))
      simpa only [filterMap_cons_some hc] using hQ m2

variable {channels : ChannelId → ChannelState} {nodes : Finset ChannelId} {destination : ChannelId}

/-- The search never asks for the lock of the destination, does not outrun its fuel, and
answers `false` only after it has visited everything it was asked about. -/
theorem wp_reachLoop (hnodes : ∀ c ∉ nodes, (channels c).outgoing = []) {fuel : Nat}
    {pending visited : List ChannelId} {Q : Bool × List ChannelId → Budget → Prop}
    {m : Budget}
    (hex : Graph.Explored (fun c => (channels c).outgoing) destination visited pending)
    (hfuel : Graph.work (fun c => (channels c).outgoing) nodes visited pending < fuel)
    (htrue : ∀ visited' m', Q (true, visited') m') (hfalse : ∀ visited' m',
      Graph.Explored (fun c => (channels c).outgoing) destination visited' [] →
      visited ⊆ visited' → pending ⊆ visited' → Q (false, visited') m')
    (hE : ∀ e m', E (.error e) m') :
    wp (reachLoop channels destination destination fuel pending visited) Q E m := by
  induction fuel generalizing pending visited m with
  | zero => omega
  | succ fuel ih =>
    cases pending with
    | nil => exact wp_pure (hfalse visited m hex (List.Subset.refl _) (nil_subset _))
    | cons candidate pending =>
      refine wp_ite (fun _ => wp_pure (htrue _ _)) fun hne => ?_
      refine wp_ite (fun hmem => ?_) fun hnew => ?_
      · refine ih (hex.skip hmem) ?_ ?_
        · simp only [Graph.work, length_cons] at hfuel ⊢
          omega
        · intro visited' m' hdone hv hp
          exact hfalse visited' m' hdone hv (cons_subset.mpr ⟨hv hmem, hp⟩)
      · refine wp_bind (wp_alloc (fun m1 => wp_bind ?_) (hE _))
        unfold lockedOutgoing
        rw [if_neg hne]
        refine wp_collectOutgoing (fun m2 => wp_bind ?_) hE
        refine wp_allocCapacity (fun m3 => ?_) (hE _)
        have hwork := Graph.work_visit (fun c => (channels c).outgoing) nodes pending hnew
          (hnodes candidate)
        refine ih (hex.visit hne) ?_ ?_
        · change Graph.work _ _ _ ((channels candidate).outgoing.reverse ++ pending) < fuel
          omega
        intro visited' m' hdone hv hp
        have hv' := append_subset.mp hv
        have hp' := append_subset.mp hp
        exact hfalse visited' m' hdone hv'.1 (cons_subset.mpr ⟨hv'.2 (mem_singleton_self _), hp'.2⟩)

/-- One search of a write.  Channels at or above `next` have no messages. -/
theorem wp_objectReachesChannel {channels : Heap ChannelState} {object : Object}
    {visited : List ChannelId} {Q : Bool × List ChannelId → Budget → Prop}
    {m : Budget}
    (hblank : ∀ c, channels.next ≤ c → (channels.cell c).outgoing = [])
    (hex : Graph.Explored (fun c => (channels.cell c).outgoing) destination visited [])
    (htrue : ∀ visited' m', Q (true, visited') m') (hfalse : ∀ visited' m',
      Graph.Explored (fun c => (channels.cell c).outgoing) destination visited' [] →
      visited ⊆ visited' → (∀ st side, object.kernel = .channel st side → st ∈ visited') →
      Q (false, visited') m') (hE : ∀ e m', E (.error e) m') :
    wp (objectReachesChannel channels object destination destination visited) Q E m := by
  unfold objectReachesChannel
  split
  · rename_i st side hker
    apply wp_bind
    apply wp_alloc
    · intro m1
      have hnodes : ∀ c ∉ Finset.range channels.next, (channels.cell c).outgoing = [] := by
        intro c hc
        rw [Finset.mem_range, not_lt] at hc
        exact hblank c hc
      have hsub : ∑ v ∈ Finset.range channels.next with v ∉ visited,
          (channels.cell v).outgoing.length ≤
          ∑ v ∈ Finset.range channels.next, (channels.cell v).outgoing.length :=
        Finset.sum_le_sum_of_subset (Finset.filter_subset _ _)
      apply wp_reachLoop hnodes (hex.push [st]) _ htrue _ hE
      · simp only [Graph.work, append_nil, length_singleton]
        omega
      intro visited' m' hdone hvisited hpend
      refine hfalse visited' m' hdone hvisited ?_
      intro st' side' hker'
      rw [hker] at hker'
      cases hker'
      exact hpend mem_cons_self
    · exact hE _
  · rename_i hother
    refine hfalse visited m hex (List.Subset.refl _) ?_
    intro st side hker
    exact absurd hker (hother st side)

end Ginkgo.Ipc
