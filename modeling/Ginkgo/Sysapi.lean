import Ginkgo.Lib.Bitflags

/-!
# Stable system-call vocabulary

The value types that the kernel shares with its clients: flag sets, raw handles,
status codes and the records returned for requests, processes and system power.  A
field that a caller fills in keeps the raw integer it travels as and is decoded where
the code decodes it; a field that only the kernel writes is an enumeration.
-/

namespace Ginkgo.Sysapi

/-! ## Flag sets -/

abbrev Rights := BitVec 32

namespace Rights

def empty : Rights := 0#32
def READ : Rights := 1#32 <<< 0
def WRITE : Rights := 1#32 <<< 1
def WAIT : Rights := 1#32 <<< 2
def DUPLICATE : Rights := 1#32 <<< 4
def TRANSFER : Rights := 1#32 <<< 5
def MAP : Rights := 1#32 <<< 6
def MANAGE : Rights := 1#32 <<< 7
def INSPECT : Rights := 1#32 <<< 8
def TERMINATE : Rights := 1#32 <<< 9
def EXECUTE : Rights := 1#32 <<< 10
def SCHEDULE : Rights := 1#32 <<< 11

end Rights

abbrev Signals := BitVec 32

namespace Signals

def empty : Signals := 0#32
def READABLE : Signals := 1#32 <<< 0
def WRITABLE : Signals := 1#32 <<< 1
def PEER_CLOSED : Signals := 1#32 <<< 2
def SIGNALED : Signals := 1#32 <<< 3
def TERMINATED : Signals := 1#32 <<< 4

end Signals

def channelMaxBytes : Nat := 16 * 1024
def channelMaxHandles : Nat := 16

structure Handle where
  raw : UInt32
  deriving DecidableEq, Repr

structure MessageInfo where
  byteCount : Nat
  handleCount : Nat
  deriving DecidableEq, Repr

/-- The counts travel as `u32` and `u16`. -/
def MessageInfo.new (byteCount handleCount : Nat) : MessageInfo :=
  ⟨byteCount % 2 ^ 32, handleCount % 2 ^ 16⟩

structure WaitItem where
  handle : Handle
  waitFor : Signals
  pending : Signals
  deriving DecidableEq, Repr

inductive ObjectType
  | channel
  | sharedMemory
  | window
  | filesystemRoot
  | file
  | randomSource
  | process
  | applicationData
  | directory
  | systemPower
  | schedulingAuthority
  | request
  deriving DecidableEq, Repr

inductive Status
  | ok
  | invalidHandle
  | wrongObjectType
  | accessDenied
  | invalidRights
  | duplicateHandle
  | messageTooLarge
  | handleTableFull
  | shouldWait
  | peerClosed
  | bufferTooSmall
  | invalidMessage
  | cyclicTransfer
  | outOfMemory
  | invalidArgument
  | invalidAddress
  | outOfRange
  | alreadyMapped
  | unknownSyscall
  | notFound
  | endOfDirectory
  | io
  | timedOut
  | resourceLimit
  | notDirectory
  | isDirectory
  | directoryNotEmpty
  | alreadyExists
  | crossDevice
  | canceled
  deriving DecidableEq, Repr

/-- The discriminant of a status. -/
def Status.raw : Status → Int
  | .ok => 0
  | .invalidHandle => -1
  | .wrongObjectType => -2
  | .accessDenied => -3
  | .invalidRights => -4
  | .duplicateHandle => -5
  | .messageTooLarge => -6
  | .handleTableFull => -7
  | .shouldWait => -8
  | .peerClosed => -9
  | .bufferTooSmall => -10
  | .invalidMessage => -11
  | .cyclicTransfer => -12
  | .outOfMemory => -13
  | .invalidArgument => -14
  | .invalidAddress => -15
  | .outOfRange => -16
  | .alreadyMapped => -17
  | .unknownSyscall => -18
  | .notFound => -19
  | .endOfDirectory => -20
  | .io => -21
  | .timedOut => -22
  | .resourceLimit => -23
  | .notDirectory => -24
  | .isDirectory => -25
  | .directoryNotEmpty => -26
  | .alreadyExists => -27
  | .crossDevice => -28
  | .canceled => -29

/-! ## Requests -/

inductive RequestState
  | pending
  | active
  | cancelPending
  | completing
  | completed
  | timedOut
  | canceled
  | failed
  | ownerTerminated
  deriving DecidableEq, Repr

def RequestState.fromRaw : Nat → Option RequestState
  | 0 => some .pending
  | 1 => some .active
  | 2 => some .cancelPending
  | 3 => some .completing
  | 4 => some .completed
  | 5 => some .timedOut
  | 6 => some .canceled
  | 7 => some .failed
  | 8 => some .ownerTerminated
  | _ => none

/-- The discriminant of a state. -/
def RequestState.raw : RequestState → Nat
  | .pending => 0
  | .active => 1
  | .cancelPending => 2
  | .completing => 3
  | .completed => 4
  | .timedOut => 5
  | .canceled => 6
  | .failed => 7
  | .ownerTerminated => 8

@[simp] theorem RequestState.fromRaw_raw (state : RequestState) :
    RequestState.fromRaw state.raw = some state := by
  cases state <;> rfl

inductive RequestOperation
  | nop
  | filesystemRead
  | filesystemWrite
  | filesystemSync
  | audioWrite
  | filesystemOpen
  | filesystemTruncate
  | filesystemNamespace
  | synthetic
  deriving DecidableEq, Repr

def RequestOperation.raw : RequestOperation → Nat
  | .nop => 0
  | .filesystemRead => 1
  | .filesystemWrite => 2
  | .filesystemSync => 3
  | .audioWrite => 4
  | .filesystemOpen => 5
  | .filesystemTruncate => 6
  | .filesystemNamespace => 7
  | .synthetic => 0xffffff00

inductive RequestCompletionMode
  | inlineOnly
  | block
  | handle
  deriving DecidableEq, Repr

def requestInfoVersion : Nat := 1

def requestInfoSize : Nat := 80

def requestMaxBuffers : Nat := 4

/-- The bits of `RequestResultFlags`. -/
def requestResultCancelAcknowledged : Nat := 2

def requestResultDeadlineExpired : Nat := 4

structure RequestInfo where
  version : Nat
  size : Nat
  state : Nat
  operation : Nat
  requestFlags : Nat
  resultFlags : Nat
  result : Int
  reserved : Nat
  bytesTransferred : Nat
  deadlineNs : Int
  submittedNs : Nat
  startedNs : Nat
  completedNs : Nat
  userData : Nat
  deriving DecidableEq, Repr

def RequestInfo.requestState (info : RequestInfo) : Option RequestState :=
  RequestState.fromRaw info.state

inductive ProcessState
  | running
  | terminated
  deriving DecidableEq, Repr

inductive ProcessTerminationCause
  | none
  | exited
  | terminated
  | faulted
  deriving DecidableEq, Repr

inductive ProcessFault
  | none
  | pageFault
  | generalProtection
  | invalidOpcode
  | invalidUserContext
  | resourceLimit
  | other
  | outOfMemory
  deriving DecidableEq, Repr

structure ProcessInfo where
  state : ProcessState
  cause : ProcessTerminationCause
  exitCode : Int
  fault : ProcessFault
  faultCode : Nat
  faultAddress : Nat
  deriving DecidableEq, Repr

inductive ThreadSchedulingClass
  | critical
  | audio
  | interactive
  | normal
  | background
  deriving DecidableEq, Repr

inductive SystemPowerAction
  | powerOff
  | reboot
  deriving DecidableEq, Repr

inductive SystemPowerState
  | idle
  | requested
  | quiescing
  | synchronizing
  | committing
  | canceled
  | failed
  deriving DecidableEq, Repr

abbrev SystemPowerFlags := BitVec 32

namespace SystemPowerFlags

def FORCE : SystemPowerFlags := 1#32 <<< 0
def all : SystemPowerFlags := FORCE

end SystemPowerFlags

/-- `action` is `none` before the first request, `failureStatus` while nothing failed. -/
structure SystemPowerInfo where
  state : SystemPowerState
  action : Option SystemPowerAction
  flags : SystemPowerFlags
  failureStatus : Option Status
  sequence : Nat
  deadlineNs : Nat
  deriving DecidableEq, Repr

def SystemPowerInfo.default : SystemPowerInfo := ⟨.idle, none, 0#32, none, 0, 0⟩

end Ginkgo.Sysapi
