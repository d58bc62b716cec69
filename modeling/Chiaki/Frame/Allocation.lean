import Chiaki.Frame.Processor

/-!
# What `alloc_frame` leaves behind

The two sizes always describe the two blocks. A call that completes leaves an empty frame; the exits
between the first check and the end leave a frame processor whose fields belong to different frames.
-/

namespace Chiaki
open Memory

theorem le_stride (size : Nat) : size ≤ FrameProcessor.stride size := by
  unfold FrameProcessor.stride
  omega

theorem stride_le (size : Nat) : FrameProcessor.stride size ≤ size + 15 := by
  unfold FrameProcessor.stride
  omega

theorem sixteen_le_stride {size : Nat} (positive : size ≠ 0) : 16 ≤ FrameProcessor.stride size := by
  unfold FrameProcessor.stride
  omega

namespace FrameProcessor

structure Allocated (fp : FrameProcessor) : Prop where
  slots_length : (fp.unitSlots.getD []).length = fp.unitSlotsSize
  buf_length : (fp.frameBuf = none ∧ fp.frameBufSize = 0) ∨
    ∃ buf, fp.frameBuf = some buf ∧ buf.length = fp.frameBufSize + videoBufferPaddingSize

theorem init_allocated : Allocated init := ⟨rfl, .inl ⟨rfl, rfl⟩⟩

/-- A frame of `source` and `fec` units of `size` bytes of which nothing has arrived. -/
structure Started (fp : FrameProcessor) (source fec size : Nat) : Prop where
  flushed_eq : fp.flushed = false
  source_eq : fp.unitsSourceExpected = source
  fec_eq : fp.unitsFecExpected = fec
  size_eq : fp.bufSizePerUnit = size
  stride_eq : fp.bufStridePerUnit = stride size
  sourceReceived_eq : fp.unitsSourceReceived = 0
  fecReceived_eq : fp.unitsFecReceived = 0
  slots_eq : fp.unitSlots = some (List.replicate (source + fec) 0)
  slotsSize_eq : fp.unitSlotsSize = source + fec
  buf_eq : ∃ buf, fp.frameBuf = some buf ∧ buf.length = fp.frameBufSize + videoBufferPaddingSize ∧
    ∀ i, i < (source + fec) * stride size → buf[i]? = some 0
  fits : (source + fec) * stride size ≤ fp.frameBufSize

def sourceUnits (packet : TakionAVPacket) : Nat := packet.unitsInFrameTotal - packet.unitsInFrameFec

def fecUnits (packet : TakionAVPacket) : Nat :=
  if packet.unitsInFrameFec < 1 then 1 else packet.unitsInFrameFec

theorem fecUnits_pos (packet : TakionAVPacket) : 0 < fecUnits packet := by
  unfold fecUnits
  split <;> omega

/-- The packet describes a frame the processor can hold, and the memory for it is there. -/
def Completes (fp : FrameProcessor) (packet : TakionAVPacket) (outcome : AllocOutcome) : Prop :=
  ∃ size, unitSize packet (sourceUnits packet) = some size ∧ size ≠ 0 ∧
    sourceUnits packet + fecUnits packet ≤ unitSlotsMax ∧
    (sourceUnits packet + fecUnits packet ≠ fp.unitSlotsSize → outcome.slots = true) ∧
    (fp.frameBufSize < (sourceUnits packet + fecUnits packet) * stride size → outcome.frameBuf = true)

theorem unitSize_lt {packet : TakionAVPacket} {source size : Nat}
    (h : unitSize packet source = some size) : size < 2 ^ 17 := by
  have short := packet.dataSize_lt
  unfold unitSize at h
  split at h
  · split at h
    · rename_i hi lo rest data
      have hhi := hi.toNat_lt
      have hlo := lo.toNat_lt
      obtain rfl := Option.some.inj h
      simp only [TakionAVPacket.dataSize, ntohs]
      omega
    · simp at h
  · obtain rfl := Option.some.inj h
    simp only [TakionAVPacket.dataSize]
    omega

/-! ## The two blocks -/

section Slots
variable (fp : FrameProcessor) {ok : Bool}
variable (length : (fp.unitSlots.getD []).length = fp.unitSlotsSize)
variable (some_fec : 0 < fp.unitsFecExpected)
include length some_fec

theorem allocSlots_done (few : fp.unitsSourceExpected + fp.unitsFecExpected ≤ unitSlotsMax)
    (memory : fp.unitsSourceExpected + fp.unitsFecExpected ≠ fp.unitSlotsSize → ok = true) :
    ∃ fp', fp.allocSlots ok = (fp', none) ∧ fp'.clearSlots =
      .ok { fp with
        unitSlots := some (List.replicate (fp.unitsSourceExpected + fp.unitsFecExpected) 0)
        unitSlotsSize := fp.unitsSourceExpected + fp.unitsFecExpected } := by
  have clear (slots : List Nat) : write slots 0 (List.replicate slots.length 0) =
      some (List.replicate slots.length 0) := by
    rw [write_eq_some (by simp)]
    simp
  unfold allocSlots
  simp only []
  rw [if_neg (by omega)]
  by_cases same : fp.unitsSourceExpected + fp.unitsFecExpected = fp.unitSlotsSize
  · rw [if_neg (by simpa using same)]
    cases slots : fp.unitSlots with
    | none =>
        rw [slots, Option.getD_none, List.length_nil] at length
        omega
    | some l =>
        rw [slots, Option.getD_some] at length
        refine ⟨fp, rfl, ?_⟩
        rw [clearSlots, slots, deref_some, ok_bind, ← length, clear, inBounds_some, ok_bind, same,
          ← length]
        rfl
  · rw [if_pos same, if_pos (memory same)]
    refine ⟨_, rfl, ?_⟩
    have cleared := clear (List.replicate (fp.unitsSourceExpected + fp.unitsFecExpected) 0)
    rw [List.length_replicate] at cleared
    rw [clearSlots, deref_some, ok_bind, cleared, inBounds_some, ok_bind]
    rfl

omit some_fec in
theorem allocSlots_failed
    (missing : ¬ (fp.unitsSourceExpected + fp.unitsFecExpected ≤ unitSlotsMax ∧
      (fp.unitsSourceExpected + fp.unitsFecExpected ≠ fp.unitSlotsSize → ok = true))) :
    ∃ slots size err, fp.allocSlots ok =
        ({ fp with unitSlots := slots, unitSlotsSize := size }, some err) ∧
      err ≠ .success ∧ (slots.getD []).length = size := by
  unfold allocSlots
  simp only []
  by_cases few : fp.unitsSourceExpected + fp.unitsFecExpected ≤ unitSlotsMax
  · have lacking : fp.unitsSourceExpected + fp.unitsFecExpected ≠ fp.unitSlotsSize ∧ ok ≠ true := by
      by_contra fine
      exact missing ⟨few, fun differ => by by_contra no; exact fine ⟨differ, no⟩⟩
    rw [if_neg (by omega), if_pos lacking.1, if_neg lacking.2]
    exact ⟨none, 0, .memory, rfl, by decide, rfl⟩
  · rw [if_pos (by omega)]
    exact ⟨fp.unitSlots, fp.unitSlotsSize, .invalidData, rfl, by decide, length⟩

end Slots

section FrameBuf
variable (fp : FrameProcessor) {ok : Bool}
variable (length : (fp.frameBuf = none ∧ fp.frameBufSize = 0) ∨
  ∃ buf, fp.frameBuf = some buf ∧ buf.length = fp.frameBufSize + videoBufferPaddingSize)
variable (positive : 0 < fp.unitSlotsSize * fp.bufStridePerUnit)
variable (small : ¬ fp.unitSlotsSize > sizeMax / fp.bufStridePerUnit)
include length positive small

theorem allocFrameBuf_done
    (memory : fp.frameBufSize < fp.unitSlotsSize * fp.bufStridePerUnit → ok = true) :
    ∃ fp' buf size, fp.allocFrameBuf ok = (fp', none) ∧
      fp'.clearFrameBuf = .ok { fp with frameBuf := some buf, frameBufSize := size } ∧
      buf.length = size + videoBufferPaddingSize ∧
      (∀ i, i < fp.unitSlotsSize * fp.bufStridePerUnit → buf[i]? = some 0) ∧
      fp.unitSlotsSize * fp.bufStridePerUnit ≤ size := by
  unfold allocFrameBuf
  simp only []
  rw [if_neg small]
  have clear (block : Bytes)
      (room : fp.unitSlotsSize * fp.bufStridePerUnit + videoBufferPaddingSize ≤ block.length) :
      ∃ buf, write block 0 (List.replicate
          (fp.unitSlotsSize * fp.bufStridePerUnit + videoBufferPaddingSize) 0) = some buf ∧
        buf.length = block.length ∧
        ∀ i, i < fp.unitSlotsSize * fp.bufStridePerUnit → buf[i]? = some 0 := by
    obtain ⟨buf, written⟩ := exists_write block (List.replicate
      (fp.unitSlotsSize * fp.bufStridePerUnit + videoBufferPaddingSize) 0) 0 (by simpa using room)
    refine ⟨buf, written, length_of_write written, fun i bound => ?_⟩
    rw [getElem?_of_write written, List.length_replicate, if_pos (by omega), List.getElem?_replicate,
      if_pos (by omega)]
  by_cases grow : fp.frameBufSize < fp.unitSlotsSize * fp.bufStridePerUnit
  · obtain ⟨buf, written, same, zero⟩ := clear (List.replicate
      (fp.unitSlotsSize * fp.bufStridePerUnit + videoBufferPaddingSize) 0) (by simp)
    rw [if_pos grow, if_pos (memory grow)]
    refine ⟨_, buf, _, rfl, ?_, by rw [same, List.length_replicate], zero, le_rfl⟩
    rw [clearFrameBuf, deref_some, ok_bind, written, inBounds_some, ok_bind]
    rfl
  · rw [if_neg grow]
    rcases length with ⟨-, none_size⟩ | ⟨block, here, same⟩
    · omega
    · obtain ⟨buf, written, same', zero⟩ := clear block (by omega)
      refine ⟨fp, buf, fp.frameBufSize, rfl, ?_, same'.trans same, zero, by omega⟩
      rw [clearFrameBuf, here, deref_some, ok_bind, written, inBounds_some, ok_bind]
      rfl

omit length positive in
theorem allocFrameBuf_failed (grow : fp.frameBufSize < fp.unitSlotsSize * fp.bufStridePerUnit)
    (lacking : ok ≠ true) :
    fp.allocFrameBuf ok = ({ fp with frameBuf := none, frameBufSize := 0 }, some .memory) := by
  unfold allocFrameBuf
  simp only []
  rw [if_neg small, if_pos grow, if_neg lacking]

end FrameBuf

/-! ## The whole call -/

theorem Started.allocated {fp : FrameProcessor} {source fec size : Nat}
    (h : Started fp source fec size) : Allocated fp where
  slots_length := by rw [h.slots_eq, h.slotsSize_eq, Option.getD_some, List.length_replicate]
  buf_length := by
    obtain ⟨buf, here, length, -⟩ := h.buf_eq
    exact .inr ⟨buf, here, length⟩

theorem allocFrame_rejected {fp : FrameProcessor} {packet : TakionAVPacket} (outcome : AllocOutcome)
    (fewer : packet.unitsInFrameTotal < packet.unitsInFrameFec) :
    fp.allocFrame packet outcome = .ok (fp, .invalidData) := by
  rw [allocFrame, if_pos fewer]
  rfl

theorem slots_fit_sizeMax {count size : Nat} (few : count ≤ unitSlotsMax) (small : size < 2 ^ 17)
    (positive : size ≠ 0) : ¬ count > sizeMax / stride size := by
  have wide := sixteen_le_stride positive
  have narrow := stride_le size
  rw [not_lt, Nat.le_div_iff_mul_le (by omega)]
  calc count * stride size ≤ unitSlotsMax * (2 ^ 17 + 15) := Nat.mul_le_mul few (by omega)
    _ ≤ sizeMax := by decide

def resetFrame (fp : FrameProcessor) (packet : TakionAVPacket) (size : Nat) : FrameProcessor :=
  { fp.expectUnits packet with
    bufSizePerUnit := size, bufStridePerUnit := stride size
    unitsSourceReceived := 0, unitsFecReceived := 0 }

def sizedFrame (fp : FrameProcessor) (packet : TakionAVPacket) (size : Nat) : FrameProcessor :=
  { fp.resetFrame packet size with
    unitSlots := some (List.replicate (sourceUnits packet + fecUnits packet) 0)
    unitSlotsSize := sourceUnits packet + fecUnits packet }

theorem allocFrame_eq {fp : FrameProcessor} {packet : TakionAVPacket} {size : Nat}
    (outcome : AllocOutcome) (enough : ¬ packet.unitsInFrameTotal < packet.unitsInFrameFec)
    (hsize : unitSize packet (sourceUnits packet) = some size) (positive : size ≠ 0) :
    fp.allocFrame packet outcome = (fp.resetFrame packet size).allocBuffers outcome := by
  have hsize' : unitSize packet (fp.expectUnits packet).unitsSourceExpected = some size := hsize
  rw [allocFrame, if_neg enough]
  simp only [hsize', if_neg positive]
  rfl

section Buffers
variable {fp : FrameProcessor} {packet : TakionAVPacket} {size : Nat} {outcome : AllocOutcome}
variable (h : Allocated fp) (hsize : unitSize packet (sourceUnits packet) = some size)
variable (positive : size ≠ 0)
include h

theorem allocBuffers_slots (few : sourceUnits packet + fecUnits packet ≤ unitSlotsMax)
    (memory : sourceUnits packet + fecUnits packet ≠ fp.unitSlotsSize → outcome.slots = true) :
    (fp.resetFrame packet size).allocBuffers outcome =
      (fp.sizedFrame packet size).prepareFrameBuf outcome.frameBuf := by
  obtain ⟨fp1, slots, cleared⟩ := allocSlots_done (fp.resetFrame packet size) h.slots_length
    (fecUnits_pos packet) few memory
  rw [allocBuffers, slots]
  simp only [cleared, ok_bind]
  rfl

include hsize positive

theorem allocBuffers_done (few : sourceUnits packet + fecUnits packet ≤ unitSlotsMax)
    (memory : sourceUnits packet + fecUnits packet ≠ fp.unitSlotsSize → outcome.slots = true)
    (memory' : fp.frameBufSize < (sourceUnits packet + fecUnits packet) * stride size →
      outcome.frameBuf = true) :
    ∃ fp', (fp.resetFrame packet size).allocBuffers outcome = .ok (fp', .success) ∧
      Started fp' (sourceUnits packet) (fecUnits packet) size := by
  have wide := sixteen_le_stride positive
  have room : 0 < (sourceUnits packet + fecUnits packet) * stride size :=
    Nat.mul_pos (Nat.add_pos_right _ (fecUnits_pos packet)) (by omega)
  obtain ⟨fp2, buf, bufSize, block, blank, length, zero, fits⟩ :=
    allocFrameBuf_done (fp.sizedFrame packet size) h.buf_length room
      (slots_fit_sizeMax few (unitSize_lt hsize) positive) memory'
  refine ⟨{ fp.sizedFrame packet size with frameBuf := some buf, frameBufSize := bufSize }, ?_, ?_⟩
  · rw [allocBuffers_slots h few memory, prepareFrameBuf, block]
    simp only [blank, ok_bind]
    rfl
  · exact ⟨rfl, rfl, rfl, rfl, rfl, rfl, rfl, rfl, rfl, ⟨buf, rfl, length, zero⟩, fits⟩

theorem allocBuffers_failed
    (missing : ¬ (sourceUnits packet + fecUnits packet ≤ unitSlotsMax ∧
      (sourceUnits packet + fecUnits packet ≠ fp.unitSlotsSize → outcome.slots = true) ∧
      (fp.frameBufSize < (sourceUnits packet + fecUnits packet) * stride size →
        outcome.frameBuf = true))) :
    ∃ fp' err, (fp.resetFrame packet size).allocBuffers outcome = .ok (fp', err) ∧
      err ≠ .success ∧ Allocated fp' := by
  by_cases room : sourceUnits packet + fecUnits packet ≤ unitSlotsMax ∧
      (sourceUnits packet + fecUnits packet ≠ fp.unitSlotsSize → outcome.slots = true)
  · obtain ⟨few, memory⟩ := room
    have lacking : fp.frameBufSize < (sourceUnits packet + fecUnits packet) * stride size ∧
        outcome.frameBuf ≠ true := by
      by_contra fine
      refine missing ⟨few, memory, fun grow => ?_⟩
      by_contra no
      exact fine ⟨grow, no⟩
    have failed := allocFrameBuf_failed (fp.sizedFrame packet size)
      (slots_fit_sizeMax few (unitSize_lt hsize) positive) lacking.1 lacking.2
    refine ⟨{ fp.sizedFrame packet size with frameBuf := none, frameBufSize := 0 }, .memory, ?_,
      by decide, ?_, ?_⟩
    · rw [allocBuffers_slots h few memory, prepareFrameBuf, failed]
      rfl
    · exact List.length_replicate
    · exact .inl ⟨rfl, rfl⟩
  · obtain ⟨slots, count, err, failed, bad, length⟩ :=
      allocSlots_failed (fp.resetFrame packet size) h.slots_length room
    refine ⟨{ fp.resetFrame packet size with unitSlots := slots, unitSlotsSize := count }, err, ?_, bad,
      length, h.buf_length⟩
    rw [allocBuffers, failed]
    rfl

end Buffers

theorem allocFrame_completes {fp : FrameProcessor} {packet : TakionAVPacket} {outcome : AllocOutcome}
    (h : Allocated fp) (enough : ¬ packet.unitsInFrameTotal < packet.unitsInFrameFec)
    (completes : Completes fp packet outcome) :
    ∃ fp' size, fp.allocFrame packet outcome = .ok (fp', .success) ∧
      unitSize packet (sourceUnits packet) = some size ∧ size ≠ 0 ∧
      Started fp' (sourceUnits packet) (fecUnits packet) size := by
  obtain ⟨size, hsize, positive, few, memory, memory'⟩ := completes
  obtain ⟨fp', done, started⟩ := allocBuffers_done h hsize positive few memory memory'
  exact ⟨fp', size, (allocFrame_eq outcome enough hsize positive).trans done, hsize, positive, started⟩

theorem allocFrame_incomplete {fp : FrameProcessor} {packet : TakionAVPacket} {outcome : AllocOutcome}
    (h : Allocated fp) (enough : ¬ packet.unitsInFrameTotal < packet.unitsInFrameFec)
    (incomplete : ¬ Completes fp packet outcome) :
    ∃ fp' err, fp.allocFrame packet outcome = .ok (fp', err) ∧ err ≠ .success ∧ Allocated fp' := by
  cases hsize : unitSize packet (sourceUnits packet) with
  | none =>
      have hsize' : unitSize packet (fp.expectUnits packet).unitsSourceExpected = none := hsize
      refine ⟨{ fp.expectUnits packet with bufSizePerUnit := packet.dataSize }, .bufTooSmall, ?_,
        by decide, h.slots_length, h.buf_length⟩
      rw [allocFrame, if_neg enough]
      simp only [hsize']
      rfl
  | some size =>
      by_cases positive : size = 0
      · have hsize' : unitSize packet (fp.expectUnits packet).unitsSourceExpected = some size := hsize
        refine ⟨{ fp.expectUnits packet with bufSizePerUnit := size, bufStridePerUnit := stride size },
          .bufTooSmall, ?_, by decide, h.slots_length, h.buf_length⟩
        rw [allocFrame, if_neg enough]
        simp only [hsize', if_pos positive]
        rfl
      · rw [allocFrame_eq outcome enough hsize positive]
        exact allocBuffers_failed h hsize positive fun fine => incomplete ⟨size, hsize, positive, fine⟩

end FrameProcessor
end Chiaki
