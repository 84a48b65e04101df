import Ginkgo.Lib.Words
import Ginkgo.Lib.Fallible

/-!
# DMA buffers

The memory of a transfer is a list of physical segments.  A command moves a window of it,
cut out of the segments that the window meets.
-/

namespace Ginkgo.Kernel.AsyncBlock

open Ginkgo.Lib

def sectorSize : Nat := 512
def maxDmaSegments : Nat := 32
def maxChildren : Nat := 64
def defaultChildBytes : Nat := 4096
def maxRequestBytes : Nat := defaultChildBytes * maxChildren

structure DmaSegment where
  physicalAddress : Nat
  length : Nat
  deriving DecidableEq, Repr

inductive DmaAddressMode
  | bits32
  | bits64
  deriving DecidableEq, Repr

structure DmaConstraints where
  addressMode : DmaAddressMode
  addressAlignment : Nat
  maxSegments : Nat
  maxSegmentLen : Nat
  deriving DecidableEq, Repr

namespace DmaConstraints

def dma64 : DmaConstraints := ⟨.bits64, 1, maxDmaSegments, u32Max⟩

def isValid (dma : DmaConstraints) : Bool :=
  dma.addressAlignment ≠ 0 && 2 ^ dma.addressAlignment.log2 = dma.addressAlignment &&
    dma.maxSegments ≠ 0 && dma.maxSegments ≤ maxDmaSegments && dma.maxSegmentLen ≠ 0

end DmaConstraints

/-- Ownership of a bounce buffer.  The queue only hands it back. -/
structure BounceBufferLease where
  poolIndex : Nat
  generation : Nat
  physicalAddress : Nat
  capacity : UInt32
  used : UInt32
  deriving DecidableEq, Repr

inductive BufferKind
  | segments
  | bounce
  deriving DecidableEq, Repr

inductive DmaError
  | tooManySegments
  | segmentTooLong
  | misalignedAddress
  | addressOutsideDmaWindow
  | addressOverflow
  | sliceOutOfBounds
  deriving DecidableEq, Repr

/-- A segment that is not empty and does not run past the end of memory. -/
def DmaSegment.Sound (segment : DmaSegment) : Prop :=
  0 < segment.length ∧ segment.physicalAddress + (segment.length - 1) ≤ wordMax

/-- A buffer is as its constructors check it. -/
structure BlockBuffer where
  byteLen : Nat
  segments : List DmaSegment
  kind : BufferKind
  bounce : Option BounceBufferLease
  count : segments.length ≤ maxDmaSegments
  sound : ∀ segment ∈ segments, segment.Sound
  total : (segments.map (·.length)).sum = byteLen
  positive : 0 < byteLen
  bounded : byteLen ≤ u32Max
  deriving DecidableEq

namespace BlockBuffer

def isBounce (buffer : BlockBuffer) : Bool := buffer.kind = .bounce

def validateSegment (dma : DmaConstraints) (segment : DmaSegment) : Except DmaError Unit :=
  if dma.maxSegmentLen < segment.length then .error .segmentTooLong
  else if segment.physicalAddress % dma.addressAlignment ≠ 0 then .error .misalignedAddress
  else
    match checkedAdd segment.physicalAddress (segment.length - 1) with
    | none => .error .addressOverflow
    | some last =>
      if dma.addressMode = .bits32 ∧ u32Max < last then .error .addressOutsideDmaWindow
      else .ok ()

def validateFor (dma : DmaConstraints) (buffer : BlockBuffer) : Except DmaError Unit :=
  if dma.maxSegments < buffer.segments.length then .error .tooManySegments
  else buffer.segments.forM (validateSegment dma)

/-- Add the part of a segment that lies in the window to what was cut out before. -/
def cutSegment (offset windowEnd segmentStart : Nat) (segment : DmaSegment)
    (taken : List DmaSegment) : Except DmaError (List DmaSegment) :=
  let overlapStart := max segmentStart offset
  let overlapEnd := min (segmentStart + segment.length) windowEnd
  if overlapStart < overlapEnd then
    if taken.length = maxDmaSegments then .error .tooManySegments
    else
      match checkedAdd segment.physicalAddress (overlapStart - segmentStart) with
      | none => .error .addressOverflow
      | some address => .ok (taken ++ [⟨address, overlapEnd - overlapStart⟩])
  else .ok taken

/-- The parts of the segments that lie in the window; the first starts at `segmentStart`. -/
def sliceFrom (offset windowEnd : Nat) :
    Nat → List DmaSegment → List DmaSegment → Except DmaError (List DmaSegment)
  | _, [], taken => .ok taken
  | segmentStart, segment :: rest, taken =>
    let segmentEnd := segmentStart + segment.length
    if u32Max < segmentEnd then .error .addressOverflow
    else
      match cutSegment offset windowEnd segmentStart segment taken with
      | .error error => .error error
      | .ok taken =>
        if windowEnd ≤ segmentEnd then .ok taken
        else sliceFrom offset windowEnd segmentEnd rest taken

def slice (offset length : Nat) (buffer : BlockBuffer) : Except DmaError (List DmaSegment) :=
  if u32Max < offset + length ∨ buffer.byteLen < offset + length then .error .sliceOutOfBounds
  else
    match sliceFrom offset (offset + length) 0 buffer.segments [] with
    | .error error => .error error
    | .ok [] => .error .sliceOutOfBounds
    | .ok (segment :: rest) => .ok (segment :: rest)

end BlockBuffer

end Ginkgo.Kernel.AsyncBlock
