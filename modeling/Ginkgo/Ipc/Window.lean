import Ginkgo.Ipc.Control

/-!
# Window surface pools

The state behind the client and manager ends of a window: a pool of equal buffers, the
one presentation that is pending, the one that is displayed, and the one release the
client has not read yet.  Each operation is a function of the state that either reports
an error or returns the next state.
-/

namespace Ginkgo.Ipc

open Ginkgo.Lib Ginkgo.Sysapi

structure WindowPresentation where
  bufferIndex : Nat
  generation : Nat
  presentationSerial : Nat
  deriving DecidableEq, Repr

structure WindowRelease where
  bufferIndex : Nat
  generation : Nat
  presentationSerial : Nat
  deriving DecidableEq, Repr

inductive WindowBufferState
  | clientOwned
  | pending
  | displayed
  | released
  deriving DecidableEq, Repr

/-- `sharedMemory` names the backing of the object the window was created over, which
creation has matched against the shared-memory constructor. -/
structure WindowState where
  sharedMemory : MemoryId
  bufferLen : Nat
  generation : Nat
  buffers : List WindowBufferState
  pending : Option WindowPresentation
  pendingRead : Bool
  displayed : Option WindowPresentation
  release : Option WindowRelease
  nextSerial : Nat
  retired : Bool
  clientOpen : Bool
  managerOpen : Bool
  waiters : Sided (List SignalWaiter)
  deriving DecidableEq

/-- The release that hands a presentation's buffer back. -/
def WindowPresentation.released (presentation : WindowPresentation) : WindowRelease :=
  ⟨presentation.bufferIndex, presentation.generation, presentation.presentationSerial⟩

def windowSignals (state : WindowState) : WindowRole → Signals
  | .client =>
    (if state.release.isSome then Signals.READABLE else Signals.empty) |||
      (if !state.managerOpen then Signals.PEER_CLOSED else Signals.empty) |||
      if !state.retired && state.managerOpen && state.release.isNone && state.pending.isNone &&
          state.buffers.any (· == .clientOwned)
      then Signals.WRITABLE else Signals.empty
  | .manager =>
    (if state.pending.isSome then Signals.READABLE else Signals.empty) |||
      if !state.clientOpen then Signals.PEER_CLOSED else Signals.empty

def checkedRange (offset length allocationLen : Nat) : Except IpcError (Nat × Nat) :=
  match checkedAdd offset length with
  | none => .error .invalidMessage
  | some stop => if stop > allocationLen then .error .invalidMessage else .ok (offset, stop)

namespace WindowState

def new (sharedMemory : MemoryId) (bufferLen generation bufferCount : Nat) : WindowState where
  sharedMemory := sharedMemory
  bufferLen := bufferLen
  generation := generation
  buffers := List.replicate bufferCount .clientOwned
  pending := none
  pendingRead := false
  displayed := none
  release := none
  nextSerial := 1
  retired := false
  clientOpen := true
  managerOpen := true
  waiters := .both []

/-- What a name that was not allocated yet stands for. -/
def unallocated : WindowState where
  sharedMemory := 0
  bufferLen := 0
  generation := 0
  buffers := []
  pending := none
  pendingRead := false
  displayed := none
  release := none
  nextSerial := 1
  retired := false
  clientOpen := false
  managerOpen := false
  waiters := .both []

def withWaiters (state : WindowState) (role : WindowRole) (waiters : List SignalWaiter) :
    WindowState :=
  { state with waiters := state.waiters.set (windowRoleIndex role) waiters }

/-- The state change of an endpoint's destructor. -/
def close (state : WindowState) : WindowRole → WindowState
  | .client => { state with clientOpen := false }
  | .manager => { state with managerOpen := false }

def present (state : WindowState) (bufferIndex generation : Nat) :
    Except IpcError (WindowPresentation × WindowState) :=
  if state.release.isSome then .error .shouldWait
  else if !state.managerOpen then .error .peerClosed
  else if state.retired then .error .invalidMessage
  else if state.pending.isSome then .error .shouldWait
  else if generation ≠ state.generation then .error .invalidMessage
  else if state.buffers[bufferIndex]? ≠ some .clientOwned then .error .invalidMessage
  else
    match checkedAdd state.nextSerial 1 with
    | none => .error .invalidMessage
    | some nextSerial =>
      let presentation := ⟨bufferIndex, generation, state.nextSerial⟩
      .ok (presentation, { state with
          nextSerial := nextSerial
          buffers := state.buffers.set bufferIndex .pending
          pending := some presentation
          pendingRead := false })

def readRelease (state : WindowState) : Except IpcError (WindowRelease × WindowState) :=
  match state.release with
  | none => if state.managerOpen then .error .shouldWait else .error .peerClosed
  | some release =>
    if state.buffers[release.bufferIndex]? ≠ some .released then .error .invalidMessage
    else
      .ok (release, { state with
          release := none
          buffers := state.buffers.set release.bufferIndex .clientOwned })

def managerPending (state : WindowState) : Except IpcError WindowPresentation :=
  match state.pending with
  | some pending => .ok pending
  | none => if state.clientOpen then .error .shouldWait else .error .peerClosed

/-- Where a copy of `length` bytes at `offset` of a presentation's buffer starts in the
shared memory. -/
def bufferStart (state : WindowState) (presentation : WindowPresentation)
    (offset length : Nat) : Except IpcError Nat :=
  if presentation.generation ≠ state.generation then .error .invalidMessage
  else
    match checkedRange offset length state.bufferLen with
    | .error e => .error e
    | .ok (start, stop) =>
      if presentation.bufferIndex ≥ state.buffers.length then .error .invalidMessage
      else
        match checkedMul presentation.bufferIndex state.bufferLen with
        | none => .error .invalidMessage
        | some base =>
          match checkedAdd base start, checkedAdd base stop with
          | some first, some _ => .ok first
          | _, _ => .error .invalidMessage

def discardPending (state : WindowState) (presentation : WindowPresentation) :
    Except IpcError WindowState :=
  if state.pending ≠ some presentation then .error .invalidMessage
  else if state.pendingRead || state.release.isSome then .error .shouldWait
  else if state.buffers[presentation.bufferIndex]? ≠ some .pending then .error .invalidMessage
  else
    .ok { state with
      buffers := state.buffers.set presentation.bufferIndex .released
      pending := none
      release := some presentation.released }

def coalescePending (state : WindowState) (pending : WindowPresentation)
    (replacementBufferIndex generation : Nat) :
    Except IpcError (WindowPresentation × WindowState) :=
  if state.pending ≠ some pending || state.pendingRead || state.release.isSome ||
      state.retired || !state.clientOpen || generation ≠ state.generation then
    .error .shouldWait
  else if state.buffers[pending.bufferIndex]? ≠ some .pending ||
      state.buffers[replacementBufferIndex]? ≠ some .clientOwned then
    .error .invalidMessage
  else
    match checkedAdd state.nextSerial 1 with
    | none => .error .invalidMessage
    | some nextSerial =>
      let replacement := ⟨replacementBufferIndex, generation, state.nextSerial⟩
      .ok (replacement, { state with
          buffers :=
            (state.buffers.set pending.bufferIndex .released).set replacementBufferIndex .pending
          pending := some replacement
          pendingRead := false
          release := some pending.released
          nextSerial := nextSerial })

/-- Composition of the pending presentation finished.  When a frame was displayed before
it is released, for which the release slot must be empty.  A failed composition changes
nothing, which is `none` here. -/
def complete (state : WindowState) (presentation : WindowPresentation) (successful : Bool) :
    Except IpcError (Option WindowState) :=
  if state.pending ≠ some presentation then .error .invalidMessage
  else if !successful then .ok none
  else if state.buffers[presentation.bufferIndex]? ≠ some .pending then .error .invalidMessage
  else
    match state.displayed with
    | none =>
      .ok (some { state with
        buffers := state.buffers.set presentation.bufferIndex .displayed
        pending := none
        pendingRead := false
        displayed := some presentation })
    | some previous =>
      if state.release.isSome then .error .shouldWait
      else if state.buffers[previous.bufferIndex]? ≠ some .displayed then
        .error .invalidMessage
      else
        .ok (some { state with
          buffers :=
            (state.buffers.set previous.bufferIndex .released).set
              presentation.bufferIndex .displayed
          release := some previous.released
          pending := none
          pendingRead := false
          displayed := some presentation })

/-- Retiring a retired pool changes nothing, which is `none` here. -/
def retire (state : WindowState) : Except IpcError (Option WindowState) :=
  if state.retired then .ok none
  else if state.pending.isSome || (state.displayed.isSome && state.release.isSome) then
    .error .shouldWait
  else
    match state.displayed with
    | none => .ok (some { state with retired := true })
    | some displayed =>
      if state.buffers[displayed.bufferIndex]? ≠ some .displayed then .error .invalidMessage
      else
        .ok (some { state with
          buffers := state.buffers.set displayed.bufferIndex .released
          release := some displayed.released
          displayed := none
          retired := true })

end WindowState

end Ginkgo.Ipc
