import Ginkgo.Ipc.Machine

/-!
# What a run shows

The events of a call are read off its arguments, its result and the tables around it:
which objects it created, which handles it returned or closed, what it sent and received,
and what a window told its client.  A call that failed shows nothing.
-/

namespace Ginkgo.Ipc

open Ginkgo.Lib Ginkgo.Sysapi

variable {n : Nat}

/-- A message as its reader sees it. -/
structure Payload where
  bytes : List UInt8
  handles : List (Object × Rights)
  deriving DecidableEq

def HandleEntry.grant (entry : HandleEntry) : Object × Rights := (entry.object, entry.rights)

def KernelMessage.payload (message : KernelMessage) : Payload :=
  ⟨message.bytes, message.handles.map (·.grant)⟩

inductive Event (n : Nat)
  | created (t : Fin n) (object : Object) (rights : Rights)
  | issued (t : Fin n) (handle : Handle)
  | closed (t : Fin n) (handle : Handle)
  /-- `side` is the side that the message was queued for. -/
  | sent (c : ChannelId) (side : Side) (payload : Payload)
  | received (c : ChannelId) (side : Side) (payload : Payload)
  | presented (w : WindowId) (presentation : WindowPresentation)
  | released (w : WindowId) (release : WindowRelease)
  deriving DecidableEq

/-! ## Views of a history -/

/-- The table, the object and the rights of a first reference. -/
structure Creation (n : Nat) where
  table : Fin n
  object : Object
  rights : Rights
  deriving DecidableEq

def Event.creation? : Event n → Option (Creation n)
  | .created t object rights => some ⟨t, object, rights⟩
  | _ => none

def Event.issuedAt? (t : Fin n) : Event n → Option Handle
  | .issued u handle => if u = t then some handle else none
  | _ => none

def Event.sentAt? (c : ChannelId) (side : Side) : Event n → Option Payload
  | .sent d side' payload => if d = c ∧ side' = side then some payload else none
  | _ => none

def Event.receivedAt? (c : ChannelId) (side : Side) : Event n → Option Payload
  | .received d side' payload => if d = c ∧ side' = side then some payload else none
  | _ => none

def Event.presentedAt? (w : WindowId) : Event n → Option WindowPresentation
  | .presented v presentation => if v = w then some presentation else none
  | _ => none

def Event.releasedAt? (w : WindowId) : Event n → Option WindowRelease
  | .released v release => if v = w then some release else none
  | _ => none

/-- The objects created. -/
def creations (events : List (Event n)) : List (Creation n) := events.filterMap (·.creation?)

/-- The handles issued by table `t`. -/
def issuedAt (t : Fin n) (events : List (Event n)) : List Handle :=
  events.filterMap (·.issuedAt? t)

/-- The messages queued for one side of a channel. -/
def sentAt (c : ChannelId) (side : Side) (events : List (Event n)) : List Payload :=
  events.filterMap (·.sentAt? c side)

/-- The messages read at one side of a channel. -/
def receivedAt (c : ChannelId) (side : Side) (events : List (Event n)) : List Payload :=
  events.filterMap (·.receivedAt? c side)

/-- The presentations that window `w` accepted. -/
def presentedAt (w : WindowId) (events : List (Event n)) : List WindowPresentation :=
  events.filterMap (·.presentedAt? w)

/-- The releases that the client of window `w` read. -/
def releasedAt (w : WindowId) (events : List (Event n)) : List WindowRelease :=
  events.filterMap (·.releasedAt? w)

section

variable (past events : List (Event n))

@[simp] theorem creations_append :
    creations (past ++ events) = creations past ++ creations events :=
  List.filterMap_append

theorem mem_creations {events : List (Event n)} {t : Fin n} {object : Object} {rights : Rights} :
    ⟨t, object, rights⟩ ∈ creations events ↔ Event.created t object rights ∈ events := by
  simp only [creations, List.mem_filterMap]
  constructor
  · rintro ⟨e, he, hcreation⟩
    cases e with
    | created => cases hcreation; exact he
    | _ => cases hcreation
  · intro he
    exact ⟨_, he, rfl⟩

@[simp] theorem issuedAt_append (t : Fin n) :
    issuedAt t (past ++ events) = issuedAt t past ++ issuedAt t events :=
  List.filterMap_append

@[simp] theorem sentAt_append (c : ChannelId) (side : Side) :
    sentAt c side (past ++ events) = sentAt c side past ++ sentAt c side events :=
  List.filterMap_append

@[simp] theorem receivedAt_append (c : ChannelId) (side : Side) :
    receivedAt c side (past ++ events) = receivedAt c side past ++ receivedAt c side events :=
  List.filterMap_append

@[simp] theorem presentedAt_append (w : WindowId) :
    presentedAt w (past ++ events) = presentedAt w past ++ presentedAt w events :=
  List.filterMap_append

@[simp] theorem releasedAt_append (w : WindowId) :
    releasedAt w (past ++ events) = releasedAt w past ++ releasedAt w events :=
  List.filterMap_append

end

def HandleTable.find (table : HandleTable) (handle : Handle) : Option HandleEntry :=
  (table.entry handle).toOption

def HandleTable.findChannel (table : HandleTable) (handle : Handle) : Option (ChannelId × Side) :=
  (table.find handle).bind fun entry =>
    match entry.object.kernel with
    | .channel c side => some (c, side)
    | _ => none

def HandleTable.findWindow (table : HandleTable) (handle : Handle) : Option WindowId :=
  (table.find handle).bind fun entry =>
    match entry.object.kernel with
    | .window w _ => some w
    | _ => none

/-! ## Events of a call -/

/-- The handles of new objects. -/
def creationEvents (t : Fin n) (after : System n) (handle : Handle) : List (Event n) :=
  match (after.tables t).find handle with
  | some entry => [.created t entry.object entry.rights, .issued t handle]
  | none => []

/-- A message of `bytes` with a reference for every disposition, in their order. -/
def writeEvents (table : HandleTable) (channel : Handle) (bytes : List UInt8)
    (dispositions : List HandleDisposition) : List (Event n) :=
  match table.findChannel channel with
  | some (c, side) =>
    let grants := dispositions.filterMap fun d =>
      (table.find d.handle).map fun entry => (entry.object, d.rights)
    [.sent c side.peer ⟨bytes, grants⟩]
  | none => []

/-- The disposition that keeps the rights a handle has. -/
def HandleTable.keep (table : HandleTable) (handle : Handle) : Option HandleDisposition :=
  (table.find handle).map fun entry => ⟨handle, entry.rights⟩

def readEvents (t : Fin n) (before after : System n) (channel : Handle) (bytes : List UInt8)
    (handles : List Handle) : List (Event n) :=
  match (before.tables t).findChannel channel with
  | some (c, side) =>
    let grants := handles.filterMap fun handle =>
      ((after.tables t).find handle).map (·.grant)
    .received c side ⟨bytes, grants⟩ :: handles.map (.issued t)
  | none => []

def windowEvents (table : HandleTable) (window : Handle) (event : WindowId → Event n) :
    List (Event n) :=
  match table.findWindow window with
  | some w => [event w]
  | none => []

/-- The table and, for a channel between two tables, the second one. -/
def CreateOp.homes : CreateOp n → Fin n × Fin n
  | .processCreate t | .processInstall t _ | .requestInstall t _ | .systemPowerInstall t _
  | .schedulingAuthorityCreate t _ _ | .randomSourceCreate t | .applicationDataCreate t _
  | .filesystemRootCreate t | .filesystemRootCreateWithRights t _
  | .filesystemDirectoryCreate t _ _ | .filesystemFileCreate t _ _
  | .sharedMemoryCreateWithStorage t _ | .windowCreate t _
  | .windowCreateWithGenerationAndBufferCount t _ _ _ | .channelCreate t => (t, t)
  | .channelCreateBetween left right _ => (left, right)

def CreateOp.events (op : CreateOp n) (after : System n) : Value → List (Event n)
  | .handle handle | .control handle _ => creationEvents op.homes.1 after handle
  | .pair left right =>
    creationEvents op.homes.1 after left ++ creationEvents op.homes.2 after right
  | _ => []

def HandleOp.events : HandleOp n → Value → List (Event n)
  | .handleClose t handle, _ => [.closed t handle]
  | .handleDuplicate t _ _, .handle handle => [.issued t handle]
  | .handleTransferBatchBetween _ destination _ _, .handles handles =>
    handles.map (.issued destination)
  | .handleMoveBetween _ destination _ _ _, .handle handle => [.issued destination handle]
  | _, _ => []

def ChannelOp.events (before after : System n) : ChannelOp n → Value → List (Event n)
  | .channelWrite t channel bytes handles, _ =>
    writeEvents (before.tables t) channel bytes (handles.filterMap (before.tables t).keep)
  | .channelWriteWithDispositions t channel bytes dispositions, _ =>
    writeEvents (before.tables t) channel bytes dispositions
  | .channelWriteWithHandleOperations t channel bytes dispositions, _ =>
    writeEvents (before.tables t) channel bytes (dispositions.map fun d => ⟨d.handle, d.rights⟩)
  | .channelRead t channel _ _, .message _ bytes handles =>
    readEvents t before after channel bytes handles
  | _, _ => []

def WindowOp.events (before : System n) : WindowOp n → Value → List (Event n)
  | .windowPresent t client _ _, .presentation presentation =>
    windowEvents (before.tables t) client (.presented · presentation)
  | .windowManagerCoalescePending t manager _ _ _, .presentation presentation =>
    windowEvents (before.tables t) manager (.presented · presentation)
  | .windowReadRelease t client, .release release =>
    windowEvents (before.tables t) client (.released · release)
  | _, _ => []

def Record.events (r : Record n) : List (Event n) :=
  match r.outcome with
  | .error _ => []
  | .ok value =>
    match r.op with
    | .create op => op.events r.after value
    | .handle op => op.events value
    | .channel op => op.events r.before r.after value
    | .window op => op.events r.before value
    | _ => []

end Ginkgo.Ipc
