import Ginkgo.Lib.Cells
import Ginkgo.Sysapi

/-!
# Capability vocabulary

The values that the capability layer passes around: packed handles, the kernel
objects a handle can name, and the errors an operation reports.  An `Arc` to a
kernel object is kept as the object's immutable payload together with two names: the
object's identity, which every clone shares, and the identity of the one reference
held here.
-/

namespace Ginkgo.Ipc

open Ginkgo.Lib Ginkgo.Sysapi

variable {index generation : Nat}

def channelDefaultRights : Rights :=
  Rights.READ ||| Rights.WRITE ||| Rights.WAIT ||| Rights.DUPLICATE ||| Rights.TRANSFER

def sharedMemoryDefaultRights : Rights :=
  Rights.READ ||| Rights.WRITE ||| Rights.DUPLICATE ||| Rights.TRANSFER ||| Rights.MAP |||
    Rights.MANAGE

def windowClientRights : Rights :=
  Rights.READ ||| Rights.WRITE ||| Rights.WAIT ||| Rights.DUPLICATE ||| Rights.TRANSFER

def windowManagerRights : Rights :=
  Rights.READ ||| Rights.WAIT ||| Rights.DUPLICATE ||| Rights.TRANSFER ||| Rights.MANAGE

def processDefaultRights : Rights :=
  Rights.WAIT ||| Rights.INSPECT ||| Rights.TERMINATE ||| Rights.DUPLICATE ||| Rights.TRANSFER

def requestDefaultRights : Rights :=
  Rights.WAIT ||| Rights.INSPECT ||| Rights.MANAGE ||| Rights.DUPLICATE ||| Rights.TRANSFER

/-! ## Limits -/

def channelQueueCapacity : Nat := 64
def handleTableCapacity : Nat := 256
def waitersPerFacetLimit : Nat := 256
def sharedMemoryPageSize : Nat := 4096
def windowBufferCount : Nat := 2
def applicationDataMaxAppIdLen : Nat := 127

def handleIndexBits : Nat := 12
def handleIndexMask : Nat := 2 ^ handleIndexBits - 1
def handleGenerationMask : Nat := 2 ^ (32 - handleIndexBits) - 1

def handleFromParts (index generation : Nat) : Handle :=
  ⟨UInt32.ofNat ((generation <<< handleIndexBits) ||| index)⟩

def handleParts (handle : Handle) : Option (Nat × Nat) :=
  let raw := handle.raw.toNat
  let generation := raw >>> handleIndexBits
  let index := raw &&& handleIndexMask
  if raw ≠ 0 ∧ generation ≠ 0 then some (index, generation) else none

/-- A nonzero generation-tagged identity of one wait operation. -/
@[ext] structure WaitToken where
  raw : Nat
  ne_zero : raw ≠ 0
  deriving DecidableEq

inductive IpcError
  | invalidHandle
  | wrongObjectType
  | accessDenied
  | invalidRights
  | duplicateHandle
  | cyclicTransfer
  | messageTooLarge
  | handleTableFull
  | waiterLimit
  | invalidMessage
  | alreadyExists
  | outOfMemory
  | shouldWait
  | peerClosed
  | bufferTooSmall (info : MessageInfo)
  deriving DecidableEq, Repr

/-- Why an operation did not return a value.  Only `error` is reported to the caller:
`panicked` is an `expect` that failed, `deadlocked` a lock taken twice by one thread, and
`diverged` a loop that outran its bound. -/
inductive Fault
  | error (error : IpcError)
  | panicked
  | deadlocked
  | diverged
  deriving DecidableEq, Repr

/-! ## Kernel objects -/

abbrev ChannelId := Nat
abbrev MemoryId := Nat
abbrev WindowId := Nat
abbrev ProcessControlId := Nat
abbrev RequestControlId := Nat
abbrev PowerControlId := Nat
abbrev AuthorityId := Nat
abbrev ObserverId := Nat
abbrev RegistrationId := Nat

inductive WindowRole
  | client
  | manager
  deriving DecidableEq, Repr

/-- Position of a role's waiters in the window's two waiter lists. -/
def windowRoleIndex : WindowRole → Side
  | .client => .left
  | .manager => .right

structure FileHandle where
  filesystemId : Nat
  nodeId : Nat
  generation : Nat
  deriving DecidableEq, Repr

structure DirectoryHandle where
  filesystemId : Nat
  nodeId : Nat
  generation : Nat
  deriving DecidableEq, Repr

/-- The payload of a kernel object.  State that changes lives in the cell it names. -/
inductive KernelObject
  | channel (state : ChannelId) (side : Side)
  | sharedMemory (backing : MemoryId)
  | window (state : WindowId) (role : WindowRole)
  | process (control : ProcessControlId)
  | request (control : RequestControlId)
  | applicationData (appId : List UInt8)
  | systemPower (control : PowerControlId)
  | schedulingAuthority (control : AuthorityId)
  | filesystemRoot
  | directory (directory : DirectoryHandle)
  | file (file : FileHandle)
  | randomSource
  deriving DecidableEq, Repr

/-- A kernel object as every reference to it sees it. -/
structure Object where
  id : Nat
  kernel : KernelObject
  deriving DecidableEq, Repr

/-- One strong reference to an object with the authority it carries.  `ref` names
the reference itself: a clone gets a name of its own, a move keeps it. -/
structure HandleEntry where
  object : Object
  rights : Rights
  ref : Nat
  deriving DecidableEq, Repr

def KernelObject.type : KernelObject → ObjectType
  | .channel .. => .channel
  | .sharedMemory .. => .sharedMemory
  | .randomSource => .randomSource
  | .window .. => .window
  | .process .. => .process
  | .request .. => .request
  | .applicationData .. => .applicationData
  | .systemPower .. => .systemPower
  | .schedulingAuthority .. => .schedulingAuthority
  | .filesystemRoot => .filesystemRoot
  | .directory .. => .directory
  | .file .. => .file

inductive HandleOperation
  | move
  | duplicate
  deriving DecidableEq, Repr

/-- One move or duplicate attached to a channel write or a cross-table batch. -/
structure HandleOperationDisposition where
  handle : Handle
  operation : HandleOperation
  rights : Rights
  deriving DecidableEq, Repr

/-- A handle moved by a channel write and the rights installed at the receiver. -/
structure HandleDisposition where
  handle : Handle
  rights : Rights
  deriving DecidableEq, Repr

def HandleOperation.required : HandleOperation → Rights
  | .move => Rights.TRANSFER
  | .duplicate => Rights.DUPLICATE

section

variable (hidx : index < 2 ^ handleIndexBits)
include hidx

theorem handleFromParts_toNat (hgen : generation ≤ handleGenerationMask) :
    (handleFromParts index generation).raw.toNat = generation * 2 ^ handleIndexBits + index := by
  have hor : generation <<< handleIndexBits ||| index =
      generation * 2 ^ handleIndexBits + index := by
    rw [← Nat.shiftLeft_add_eq_or_of_lt hidx, Nat.shiftLeft_eq]
  simp only [handleFromParts, UInt32.toNat_ofNat']
  simp only [handleIndexBits, handleGenerationMask] at *
  omega

/-- Packing then unpacking returns the parts, for every generation that is not retired. -/
theorem handleParts_handleFromParts (hpos : generation ≠ 0)
    (hgen : generation ≤ handleGenerationMask) :
    handleParts (handleFromParts index generation) = some (index, generation) := by
  have hraw := handleFromParts_toNat hidx hgen
  have hmask : (generation * 2 ^ handleIndexBits + index) &&& handleIndexMask = index := by
    rw [handleIndexMask, Nat.and_two_pow_sub_one_eq_mod, Nat.mul_comm, Nat.mul_add_mod,
      Nat.mod_eq_of_lt hidx]
  have hshift : (generation * 2 ^ handleIndexBits + index) >>> handleIndexBits = generation := by
    rw [Nat.shiftRight_eq_div_pow, Nat.mul_comm,
      Nat.mul_add_div (Nat.two_pow_pos _), Nat.div_eq_of_lt hidx, Nat.add_zero]
  simp only [handleParts, hraw, hmask, hshift]
  rw [if_pos]
  have : 0 < generation * 2 ^ handleIndexBits :=
    Nat.mul_pos (Nat.pos_of_ne_zero hpos) (Nat.two_pow_pos _)
  omega

end

/-- Unpacking loses nothing: two handles with the same parts are one handle. -/
theorem handleFromParts_handleParts {handle : Handle}
    (h : handleParts handle = some (index, generation)) :
    handle = handleFromParts index generation := by
  simp only [handleParts] at h
  split at h
  · obtain ⟨rfl, rfl⟩ := h
    have hlt := handle.raw.toNat_lt
    have hidx : handle.raw.toNat &&& handleIndexMask < 2 ^ handleIndexBits := by
      rw [handleIndexMask, Nat.and_two_pow_sub_one_eq_mod]
      exact Nat.mod_lt _ (Nat.two_pow_pos _)
    have hgen : handle.raw.toNat >>> handleIndexBits ≤ handleGenerationMask := by
      simp only [handleIndexBits, handleGenerationMask]
      omega
    have hraw := handleFromParts_toNat hidx hgen
    have hself : handle.raw.toNat = (handle.raw.toNat >>> handleIndexBits) * 2 ^ handleIndexBits +
          (handle.raw.toNat &&& handleIndexMask) := by
      rw [handleIndexMask, Nat.and_two_pow_sub_one_eq_mod, Nat.shiftRight_eq_div_pow]
      exact (Nat.div_add_mod' _ _).symm
    cases handle with
    | mk raw =>
      rw [← hself] at hraw
      exact congrArg Handle.mk (UInt32.toNat_inj.mp hraw.symm)
  · cases h

end Ginkgo.Ipc
