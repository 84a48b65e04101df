import Ginkgo.Kernel.AsyncBlock.Slots

/-!
# Splitting a transfer

The children of a transfer cut its sectors and its memory into consecutive pieces: put
together again they are the transfer.
-/

namespace Ginkgo.Kernel.AsyncBlock

open Ginkgo.Lib List

variable {segment : DmaSegment} {config : QueueConfig}

/-- The addresses that the segments cover, in order. -/
def bytesOf (segments : List DmaSegment) : List Nat :=
  segments.flatMap fun segment => range' segment.physicalAddress segment.length

theorem bytesOf_append (segments segments' : List DmaSegment) :
    bytesOf (segments ++ segments') = bytesOf segments ++ bytesOf segments' :=
  flatMap_append

theorem bytesOf_cons (segment : DmaSegment) (segments : List DmaSegment) :
    bytesOf (segment :: segments) =
      range' segment.physicalAddress segment.length ++ bytesOf segments := rfl

theorem length_bytesOf (segments : List DmaSegment) :
    (bytesOf segments).length = (segments.map (·.length)).sum := by
  unfold bytesOf
  simp

theorem BlockBuffer.length_bytesOf (buffer : BlockBuffer) :
    (AsyncBlock.bytesOf buffer.segments).length = buffer.byteLen :=
  (AsyncBlock.length_bytesOf _).trans buffer.total

theorem window_cons_of_lt {rest : List DmaSegment} {start offset stop : Nat}
    (hstop : start + segment.length < stop) :
    ((bytesOf (segment :: rest)).drop (offset - start)).take (stop - max start offset) =
      range' (segment.physicalAddress + (max start offset - start))
        (start + segment.length - max start offset) ++
      ((bytesOf rest).drop (offset - (start + segment.length))).take
        (stop - max (start + segment.length) offset) := by
  rw [bytesOf_cons, drop_append, drop_range', Nat.mul_one, length_range',
    take_append, length_range']
  by_cases hbef : start + segment.length ≤ offset
  · rw [show segment.length - (offset - start) = 0 by omega,
      show start + segment.length - max start offset = 0 by omega,
      show max start offset = offset by omega,
      show max (start + segment.length) offset = offset by omega,
      show offset - start - segment.length = offset - (start + segment.length) by omega]
    simp
  · rw [take_of_length_le (by rw [length_range']; omega),
      show offset - start - segment.length = 0 by omega,
      show offset - (start + segment.length) = 0 by omega,
      show max start offset - start = offset - start by omega,
      show segment.length - (offset - start) = start + segment.length - max start offset by omega,
      show stop - max start offset - (start + segment.length - max start offset) =
        stop - max (start + segment.length) offset by omega]

theorem window_cons_of_le {rest : List DmaSegment} {start offset stop : Nat}
    (hstop : stop ≤ start + segment.length) :
    ((bytesOf (segment :: rest)).drop (offset - start)).take (stop - max start offset) =
      range' (segment.physicalAddress + (max start offset - start))
        (stop - max start offset) := by
  rw [bytesOf_cons, drop_append, drop_range', Nat.mul_one, take_append, length_range',
    show stop - max start offset - (segment.length - (offset - start)) = 0 by omega, take_zero,
    append_nil, take_range'_of_length_ge (by omega),
    show offset - start = max start offset - start by omega]

theorem cutSegment_eq_ok (hsound : segment.Sound) (offset stop start : Nat)
    (taken : List DmaSegment) (hroom : taken.length < maxDmaSegments) :
    ∃ part, BlockBuffer.cutSegment offset stop start segment taken = .ok (taken ++ part) ∧
      part.length ≤ 1 ∧
      bytesOf part = range' (segment.physicalAddress + (max start offset - start))
        (min (start + segment.length) stop - max start offset) := by
  obtain ⟨hlen, haddr⟩ := hsound
  unfold BlockBuffer.cutSegment
  by_cases hoverlap : max start offset < min (start + segment.length) stop
  · rw [if_pos hoverlap, if_neg (Nat.ne_of_lt hroom), checkedAdd, if_pos (by omega)]
    exact ⟨_, rfl, Nat.le_refl 1, flatMap_singleton _ _⟩
  · rw [if_neg hoverlap, Nat.sub_eq_zero_of_le (Nat.not_lt.mp hoverlap)]
    exact ⟨[], by rw [append_nil], Nat.zero_le 1, rfl⟩

theorem sliceFrom_eq_ok (offset stop start : Nat) {segments : List DmaSegment}
    (taken : List DmaSegment) (hsound : ∀ segment ∈ segments, segment.Sound)
    (hbnd : start + (segments.map (·.length)).sum ≤ u32Max)
    (hroom : taken.length + segments.length ≤ maxDmaSegments) :
    ∃ cut, BlockBuffer.sliceFrom offset stop start segments taken = .ok (taken ++ cut) ∧
      bytesOf cut = ((bytesOf segments).drop (offset - start)).take (stop - max start offset) := by
  induction segments generalizing start taken with
  | nil => exact ⟨[], by rw [append_nil]; rfl, by simp [bytesOf]⟩
  | cons segment rest ih =>
    rw [map_cons, sum_cons] at hbnd
    rw [length_cons] at hroom
    obtain ⟨part, hpart, hone, hbytes⟩ := cutSegment_eq_ok (hsound segment mem_cons_self)
      offset stop start taken (by omega)
    rw [BlockBuffer.sliceFrom, if_neg (by omega), hpart]
    simp only
    by_cases hstop : stop ≤ start + segment.length
    · rw [if_pos hstop, window_cons_of_le hstop]
      exact ⟨part, rfl, by rw [hbytes, Nat.min_eq_right hstop]⟩
    rw [if_neg hstop, window_cons_of_lt (Nat.not_le.mp hstop)]
    obtain ⟨cut, hcut, hrest⟩ := ih (start + segment.length) (taken ++ part)
      (fun segment' hmem => hsound segment' (mem_cons_of_mem _ hmem)) (by omega)
      (by rw [length_append]; omega)
    refine ⟨part ++ cut, by rw [hcut, append_assoc], ?_⟩
    rw [bytesOf_append, hbytes, hrest, Nat.min_eq_left (by omega)]

theorem BlockBuffer.slice_eq_ok (buffer : BlockBuffer) (offset length : Nat) (hlen : 0 < length)
    (hwindow : offset + length ≤ buffer.byteLen) :
    ∃ segments, buffer.slice offset length = .ok segments ∧ AsyncBlock.bytesOf segments =
        ((AsyncBlock.bytesOf buffer.segments).drop offset).take length := by
  have hbnd := buffer.bounded
  obtain ⟨cut, hcut, hbytes⟩ := sliceFrom_eq_ok offset (offset + length) 0 [] buffer.sound
    (by rw [Nat.zero_add, buffer.total]; exact hbnd)
    (by rw [length_nil, Nat.zero_add]; exact buffer.count)
  rw [Nat.zero_max, Nat.add_sub_cancel_left] at hbytes
  unfold BlockBuffer.slice
  rw [if_neg (by omega), hcut]
  cases cut with
  | nil =>
    have hempty := congrArg List.length hbytes
    rw [length_take, length_drop, buffer.length_bytesOf] at hempty
    simp only [bytesOf, flatMap_nil, length_nil] at hempty
    omega
  | cons segment rest => exact ⟨segment :: rest, rfl, hbytes⟩

theorem QueueConfig.childBytes_of_isValid (h : config.isValid = true) :
    0 < config.childBytes ∧ config.childBytes % sectorSize = 0 ∧
      config.childBytes * maxChildren ≤ u32Max := by
  unfold isValid at h
  simp only [Bool.and_eq_true, decide_eq_true_eq] at h
  obtain ⟨⟨⟨⟨⟨⟨⟨⟨⟨-, hmax⟩, -⟩, hpos⟩, hsectors⟩, hle⟩, -⟩, -⟩, -⟩, -⟩ := h
  refine ⟨Nat.pos_of_ne_zero hpos, hsectors, ?_⟩
  calc config.childBytes * maxChildren
      ≤ AsyncBlock.maxRequestBytes * maxChildren := Nat.mul_le_mul_right _ (Nat.le_trans hle hmax)
    _ ≤ u32Max := by decide

/-- The command moves the piece of the transfer that its child stands for. -/
structure IsPiece (config : QueueConfig) (request : RequestSpec) (buffer : BlockBuffer)
    (child : Nat) (command : DispatchCommand) : Prop where
  lba : command.lba = request.lba + child * config.childBytes / sectorSize
  byteLen : command.byteLen = min config.childBytes (buffer.byteLen - child * config.childBytes)
  bytes : bytesOf command.segments =
    ((bytesOf buffer.segments).drop (child * config.childBytes)).take command.byteLen

theorem Shaped.piece_lt (hvalid : config.isValid = true)
    {request : RequestSpec} {childCount : Nat} (hshaped : Shaped config request childCount)
    (hxfer : request.operation.transfersData = true) {buffer : BlockBuffer}
    (hbuf : request.buffer = some buffer) {child : Nat} (hch : child < childCount) :
    child * config.childBytes < buffer.byteLen := by
  obtain ⟨buffer', hbuf', -, -, -, hcnt⟩ := hshaped.transfer hxfer
  cases hbuf.symm.trans hbuf'
  have hpos := (QueueConfig.childBytes_of_isValid hvalid).1
  have hle : child + 1 ≤ (buffer.byteLen + config.childBytes - 1) / config.childBytes := by omega
  have hmul := (Nat.le_div_iff_mul_le hpos).mp hle
  rw [Nat.succ_mul] at hmul
  omega

theorem childSlice_eq_some (hvalid : config.isValid = true)
    {slot : RequestSlot} (hshaped : Shaped config slot.spec slot.childCount) {child : Nat}
    (hch : child < slot.childCount) :
    ∃ segments, AsyncBlockQueue.childSlice config slot child =
        some (child * config.childBytes, slot.childLen config child, segments) ∧
      slot.lba + child * config.childBytes / sectorSize ≤ wordMax ∧
      ∀ buffer, slot.operation.transfersData = true → slot.buffer = some buffer →
        bytesOf segments = ((bytesOf buffer.segments).drop (child * config.childBytes)).take
          (slot.childLen config child) := by
  obtain ⟨hpos, -, hmax⟩ := QueueConfig.childBytes_of_isValid hvalid
  have hoff : child * config.childBytes ≤ u32Max := by
    have hle : child ≤ maxChildren := Nat.le_trans (Nat.le_of_lt hch) hshaped.bounded
    exact Nat.le_trans (Nat.mul_le_mul_right _ hle) (Nat.mul_comm _ _ ▸ hmax)
  unfold AsyncBlockQueue.childSlice
  rw [if_neg (Nat.not_lt.mpr hoff)]
  by_cases hxfer : slot.operation.transfersData = true
  · obtain ⟨buffer, hbuf, -, -, hlba, -⟩ := hshaped.transfer hxfer
    have hbuf : slot.buffer = some buffer := hbuf
    have hlt := hshaped.piece_lt hvalid hxfer hbuf hch
    have hlen : slot.childLen config child =
        min config.childBytes (buffer.byteLen - child * config.childBytes) := by
      unfold RequestSlot.childLen
      rw [hbuf]
    obtain ⟨segments, hslice, hbytes⟩ := buffer.slice_eq_ok (child * config.childBytes)
      (slot.childLen config child) (by omega) (by omega)
    refine ⟨segments, ?_, ?_, ?_⟩
    · rw [if_pos hxfer, hbuf]
      simp only [Option.bind_eq_bind, Option.bind_some]
      rw [if_neg (by omega), ← hlen, if_neg (by omega), hslice]
    · exact Nat.le_trans (Nat.add_le_add_left (Nat.div_le_div_right (Nat.le_of_lt hlt)) _) hlba
    · rintro buffer' - hbuf'
      cases hbuf.symm.trans hbuf'
      exact hbytes
  · obtain ⟨hbuf, hlba, hcnt⟩ := hshaped.fence (Bool.eq_false_iff.mpr hxfer)
    have hbuf : slot.buffer = none := hbuf
    have hlba : slot.lba = 0 := hlba
    refine ⟨[], ?_, ?_, fun _ h => absurd h hxfer⟩
    · unfold RequestSlot.childLen
      rw [if_neg hxfer, hbuf]
    · have hfirst : child = 0 := by omega
      rw [hlba, hfirst]
      simp

/-- The commands follow each other on the disk from `start` to `stop`. -/
def Tiles : Nat → List DispatchCommand → Nat → Prop
  | start, [], stop => start = stop
  | start, command :: commands, stop =>
    command.lba = start ∧ 0 < command.byteLen ∧ command.byteLen % sectorSize = 0 ∧
      Tiles (start + command.byteLen / sectorSize) commands stop

/-- How far the first pieces of a transfer reach. -/
def reach (config : QueueConfig) (buffer : BlockBuffer) (count : Nat) : Nat :=
  min buffer.byteLen (count * config.childBytes)

variable {config : QueueConfig} {request : RequestSpec} {buffer : BlockBuffer}

theorem reach_mono {count count' : Nat} (h : count ≤ count') :
    reach config buffer count ≤ reach config buffer count' := by
  have hmul : count * config.childBytes ≤ count' * config.childBytes := Nat.mul_le_mul_right _ h
  unfold reach
  omega

theorem reach_mod (hvalid : config.isValid = true) (hsectors : buffer.byteLen % sectorSize = 0)
    (count : Nat) : reach config buffer count % sectorSize = 0 := by
  have hmod : count * config.childBytes % sectorSize = 0 := by
    rw [Nat.mul_mod, (QueueConfig.childBytes_of_isValid hvalid).2.1, Nat.mul_zero, Nat.zero_mod]
  unfold reach
  rcases Nat.le_total buffer.byteLen (count * config.childBytes) with hle | hle
  · rw [Nat.min_eq_left hle, hsectors]
  · rw [Nat.min_eq_right hle, hmod]

/-- Consecutive pieces tile the sectors and the memory that they reach over. -/
theorem tiles_of_isPiece (hvalid : config.isValid = true)
    (hsectors : buffer.byteLen % sectorSize = 0) (first : Nat) (commands : List DispatchCommand)
    (hpieces : ∀ k command, commands[k]? = some command →
      IsPiece config request buffer (first + k) command ∧
        (first + k) * config.childBytes < buffer.byteLen) :
    Tiles (request.lba + reach config buffer first / sectorSize) commands
        (request.lba + reach config buffer (first + commands.length) / sectorSize) ∧
      (commands.map (·.byteLen)).sum =
        reach config buffer (first + commands.length) - reach config buffer first ∧
      bytesOf (commands.flatMap (·.segments)) =
        ((bytesOf buffer.segments).drop (reach config buffer first)).take
          (reach config buffer (first + commands.length) - reach config buffer first) := by
  induction commands generalizing first with
  | nil =>
    refine ⟨rfl, ?_, ?_⟩
    · simp
    · simp [bytesOf]
  | cons command commands ih =>
    obtain ⟨hpiece, hlt⟩ := hpieces 0 command rfl
    rw [Nat.add_zero] at hpiece hlt
    have hstart : reach config buffer first = first * config.childBytes :=
      Nat.min_eq_right (Nat.le_of_lt hlt)
    have hnext : reach config buffer (first + 1) = reach config buffer first + command.byteLen := by
      unfold reach
      rw [Nat.succ_mul, hpiece.byteLen]
      omega
    obtain ⟨htiles, hsum, hbytes⟩ := ih (first + 1) fun k command' hk => by
      rw [Nat.add_assoc, Nat.add_comm 1]
      exact hpieces (k + 1) command' hk
    have hmod := reach_mod hvalid hsectors first
    have hmod' := reach_mod hvalid hsectors (first + 1)
    have hlen : command.byteLen % sectorSize = 0 := by
      unfold sectorSize at hmod hmod' ⊢
      omega
    have hmono : reach config buffer (first + 1) ≤
        reach config buffer (first + 1 + commands.length) := reach_mono (Nat.le_add_right _ _)
    rw [length_cons, Nat.add_comm commands.length, ← Nat.add_assoc]
    refine ⟨⟨?_, ?_, hlen, ?_⟩, ?_, ?_⟩
    · rw [hpiece.lba, hstart]
    · have hpos := (QueueConfig.childBytes_of_isValid hvalid).1
      rw [hpiece.byteLen]
      omega
    · have hdiv : request.lba + reach config buffer first / sectorSize +
          command.byteLen / sectorSize =
            request.lba + reach config buffer (first + 1) / sectorSize := by
        unfold sectorSize at hmod hlen ⊢
        omega
      rw [hdiv]
      exact htiles
    · rw [map_cons, sum_cons]
      omega
    · rw [flatMap_cons, bytesOf_append, hbytes, hpiece.bytes, ← hstart, hnext, ← drop_drop]
      rw [show reach config buffer (first + 1 + commands.length) - reach config buffer first =
        command.byteLen + (reach config buffer (first + 1 + commands.length) -
          (reach config buffer first + command.byteLen)) by omega, take_add]

end Ginkgo.Kernel.AsyncBlock
