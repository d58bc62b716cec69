import Chiaki.Frame.Flush
import Chiaki.Frame.Bounds

/-!
# Receiving the units of one video frame

Whatever order the units arrive in and however often, the frame processor holds exactly the units that
arrived: `Holding` does not mention the order.
-/

namespace Chiaki
open Memory

/-- The first two bytes of a source unit announce how far it falls short of the common size. -/
structure VideoFrame where
  unitSize : Nat
  source : List Bytes
  fec : List Bytes
  source_size : ∀ unit ∈ source,
    2 ≤ unit.length ∧ unit.length + FrameProcessor.paddingOf (unit.take 2) = unitSize
  fec_size : ∀ unit ∈ fec, unit.length = unitSize

namespace VideoFrame

def unit (frame : VideoFrame) (i : Nat) : Bytes := (frame.source ++ frame.fec).getD i []

def unitCount (frame : VideoFrame) : Nat := frame.source.length + frame.fec.length

/-- A frame without FEC units is given one slot for them all the same. -/
def fecSlots (frame : VideoFrame) : Nat := if frame.fec.length < 1 then 1 else frame.fec.length

def padded (frame : VideoFrame) (i : Nat) : Bytes := (frame.unit i).rightpad frame.unitSize 0

def payload (frame : VideoFrame) : Bytes := frame.source.flatMap (·.drop 2)

/-- The packet carries a unit of the frame. -/
structure IsUnit (frame : VideoFrame) (packet : TakionAVPacket) : Prop where
  video : packet.isVideo = true
  total_eq : packet.unitsInFrameTotal = frame.unitCount
  fec_eq : packet.unitsInFrameFec = frame.fec.length
  index_lt : packet.unitIndex < frame.unitCount
  data_eq : packet.data = frame.unit packet.unitIndex

def unitIndices (packets : List TakionAVPacket) : Finset Nat := (packets.map (·.unitIndex)).toFinset

section Units
variable (frame : VideoFrame)

theorem unitCount_le : frame.unitCount ≤ frame.source.length + frame.fecSlots := by
  unfold unitCount fecSlots
  split <;> omega

theorem fecSlots_pos : 0 < frame.fecSlots := by
  unfold fecSlots
  split <;> omega

theorem unit_source {i : Nat} (bound : i < frame.source.length) : frame.unit i ∈ frame.source := by
  rw [unit, List.getD_append _ _ _ _ bound, List.getD_eq_getElem _ _ bound]
  exact List.getElem_mem bound

theorem unit_fec {i : Nat} (behind : frame.source.length ≤ i) (bound : i < frame.unitCount) :
    frame.unit i ∈ frame.fec := by
  unfold unitCount at bound
  rw [unit, List.getD_append_right _ _ _ _ behind, List.getD_eq_getElem _ _ (by omega)]
  exact List.getElem_mem (by omega)

variable (some_source : frame.source ≠ [])
include some_source

theorem two_le_unitSize : 2 ≤ frame.unitSize := by
  obtain ⟨unit, rest, source⟩ := List.exists_cons_of_ne_nil some_source
  obtain ⟨enough, size⟩ := frame.source_size unit (by rw [source]; exact List.mem_cons_self)
  omega

theorem unit_length {i : Nat} (bound : i < frame.unitCount) :
    2 ≤ (frame.unit i).length ∧ (frame.unit i).length ≤ frame.unitSize := by
  by_cases source : i < frame.source.length
  · obtain ⟨enough, size⟩ := frame.source_size _ (frame.unit_source source)
    exact ⟨enough, by omega⟩
  · have size := frame.fec_size _ (frame.unit_fec (by omega) bound)
    have enough := frame.two_le_unitSize some_source
    omega

theorem padded_length {i : Nat} (bound : i < frame.unitCount) :
    (frame.padded i).length = frame.unitSize := by
  have size := (frame.unit_length some_source bound).2
  rw [padded, List.rightpad, List.length_append, List.length_replicate]
  omega

end Units

/-- Any unit of the frame tells `alloc_frame` the same size and the same counts. -/
theorem IsUnit.unitSize {frame : VideoFrame} {packet : TakionAVPacket} (h : frame.IsUnit packet) :
    FrameProcessor.unitSize packet frame.source.length = some frame.unitSize := by
  unfold FrameProcessor.unitSize
  rw [h.video, Bool.true_and]
  by_cases source : packet.unitIndex < frame.source.length
  · rw [if_pos (by simpa using source)]
    obtain ⟨enough, size⟩ := frame.source_size _ (frame.unit_source source)
    rw [← h.data_eq] at enough size
    cases data : packet.data with
    | nil => simp [data] at enough
    | cons hi rest =>
        cases rest with
        | nil => simp [data] at enough
        | cons lo rest =>
            rw [TakionAVPacket.dataSize, data, ← size, data]
            rfl
  · rw [if_neg (by simpa using source), TakionAVPacket.dataSize, h.data_eq,
      frame.fec_size _ (frame.unit_fec (by omega) h.index_lt)]

theorem IsUnit.sourceUnits {frame : VideoFrame} {packet : TakionAVPacket} (h : frame.IsUnit packet) :
    FrameProcessor.sourceUnits packet = frame.source.length := by
  rw [FrameProcessor.sourceUnits, h.total_eq, h.fec_eq, unitCount, Nat.add_sub_cancel]

theorem IsUnit.fecUnits {frame : VideoFrame} {packet : TakionAVPacket} (h : frame.IsUnit packet) :
    FrameProcessor.fecUnits packet = frame.fecSlots := by
  rw [FrameProcessor.fecUnits, h.fec_eq, fecSlots]

end VideoFrame

namespace FrameProcessor

/-- The caller of `put_unit` goes on whatever it returns. -/
def receive (fp : FrameProcessor) : List TakionAVPacket → Checked FrameProcessor
  | [] => pure fp
  | packet :: packets => do
      let r ← fp.putUnit packet
      r.1.receive packets

/-- The frame processor holds the units of the frame whose indices are in `got`, and no others. -/
structure Holding (frame : VideoFrame) (got : Finset Nat) (fp : FrameProcessor) (slots : List Nat)
    (buf : Bytes) : Prop extends Ready fp where
  flushed_eq : fp.flushed = false
  source_eq : fp.unitsSourceExpected = frame.source.length
  fec_eq : fp.unitsFecExpected = frame.fecSlots
  size_eq : fp.bufSizePerUnit = frame.unitSize
  slots_eq : fp.unitSlots = some slots
  buf_eq : fp.frameBuf = some buf
  slot_eq : ∀ i, slots.getD i 0 = if i ∈ got then (frame.unit i).length else 0
  read_eq : ∀ i, i < fp.unitSlotsSize → read buf (i * fp.bufStridePerUnit) frame.unitSize =
    some (if i ∈ got then frame.padded i else List.replicate frame.unitSize 0)
  got_lt : ∀ i ∈ got, i < frame.unitCount
  sourceReceived_eq : fp.unitsSourceReceived = (got.filter (· < frame.source.length)).card
  fecReceived_eq : fp.unitsFecReceived = (got.filter (¬ · < frame.source.length)).card

/-! ## What counting a unit leaves alone -/

section Count
variable (fp : FrameProcessor) (index : Nat)

@[simp] theorem countUnit_flushed : (fp.countUnit index).flushed = fp.flushed := by
  unfold countUnit
  split <;> rfl

@[simp] theorem countUnit_source :
    (fp.countUnit index).unitsSourceExpected = fp.unitsSourceExpected := by
  unfold countUnit
  split <;> rfl

@[simp] theorem countUnit_fec : (fp.countUnit index).unitsFecExpected = fp.unitsFecExpected := by
  unfold countUnit
  split <;> rfl

@[simp] theorem countUnit_size : (fp.countUnit index).bufSizePerUnit = fp.bufSizePerUnit := by
  unfold countUnit
  split <;> rfl

@[simp] theorem countUnit_stride : (fp.countUnit index).bufStridePerUnit = fp.bufStridePerUnit := by
  unfold countUnit
  split <;> rfl

@[simp] theorem countUnit_slots : (fp.countUnit index).unitSlots = fp.unitSlots := by
  unfold countUnit
  split <;> rfl

@[simp] theorem countUnit_slotsSize : (fp.countUnit index).unitSlotsSize = fp.unitSlotsSize := by
  unfold countUnit
  split <;> rfl

@[simp] theorem countUnit_buf : (fp.countUnit index).frameBuf = fp.frameBuf := by
  unfold countUnit
  split <;> rfl

end Count

section Holding
variable {frame : VideoFrame} {got : Finset Nat} {fp : FrameProcessor} {slots : List Nat} {buf : Bytes}

theorem Holding.slots_count (h : Holding frame got fp slots buf) : slots.length = fp.unitSlotsSize := by
  have length := h.toReady.slots_length
  rwa [h.slots_eq] at length

theorem Holding.blocks_length (h : Holding frame got fp slots buf) :
    buf.length = fp.frameBufSize + videoBufferPaddingSize := by
  rcases h.toReady.buf_length with ⟨missing, -⟩ | ⟨block, here, length⟩
  · rw [h.buf_eq] at missing
    simp at missing
  · rw [h.buf_eq] at here
    rwa [← Option.some.inj here] at length

theorem Holding.slotsSize (h : Holding frame got fp slots buf) :
    fp.unitSlotsSize = frame.source.length + frame.fecSlots := by
  rw [h.slotsSize_eq, h.source_eq, h.fec_eq]

theorem Started.holding (some_source : frame.source ≠ [])
    (h : Started fp frame.source.length frame.fecSlots frame.unitSize) :
    ∃ slots buf, Holding frame ∅ fp slots buf := by
  have positive := frame.two_le_unitSize some_source
  have ready := h.ready (by omega) frame.fecSlots_pos
  obtain ⟨buf, here, length, zero⟩ := h.buf_eq
  refine ⟨_, buf, ready, h.flushed_eq, h.source_eq, h.fec_eq, h.size_eq, h.slots_eq, here, ?_, ?_, by simp,
    by rw [h.sourceReceived_eq]; rfl, by rw [h.fecReceived_eq]; rfl⟩
  · intro i
    rw [if_neg (Finset.notMem_empty i), List.getD_eq_getElem?_getD,
      List.getElem?_getD_replicate_default_eq]
  · intro i bound
    rw [if_neg (Finset.notMem_empty i)]
    have fits := ready.fits
    have narrow := ready.narrow
    have next : (i + 1) * fp.bufStridePerUnit ≤ fp.unitSlotsSize * fp.bufStridePerUnit :=
      Nat.mul_le_mul_right _ (by omega)
    rw [Nat.succ_mul] at next
    rw [h.size_eq] at narrow
    rw [h.slotsSize_eq, h.stride_eq] at next
    rw [h.stride_eq] at narrow ⊢
    apply read_eq_replicate (by have := h.fits; omega)
    intro j low high
    exact zero j (by omega)

theorem countUnit_counts {index : Nat} (source : fp.unitsSourceExpected = frame.source.length)
    (sourceReceived : fp.unitsSourceReceived = (got.filter (· < frame.source.length)).card)
    (fecReceived : fp.unitsFecReceived = (got.filter (¬ · < frame.source.length)).card)
    (absent : index ∉ got) :
    (fp.countUnit index).unitsSourceReceived =
        ((insert index got).filter (· < frame.source.length)).card ∧
      (fp.countUnit index).unitsFecReceived =
        ((insert index got).filter (¬ · < frame.source.length)).card := by
  have absent' (p : Nat → Prop) [DecidablePred p] : index ∉ got.filter p :=
    fun member => absent (Finset.mem_of_mem_filter _ member)
  unfold countUnit
  rw [source]
  by_cases low : index < frame.source.length
  · rw [if_pos low, Finset.filter_insert, Finset.filter_insert, if_pos low, if_neg (not_not.mpr low),
      Finset.card_insert_of_notMem (absent' _), sourceReceived]
    exact ⟨rfl, fecReceived⟩
  · rw [if_neg low, Finset.filter_insert, Finset.filter_insert, if_neg low, if_pos low,
      Finset.card_insert_of_notMem (absent' _), fecReceived]
    exact ⟨sourceReceived, rfl⟩

theorem strides_disjoint {i j stride size size' : Nat} (differ : i ≠ j) (short : size' ≤ size)
    (narrow : size ≤ stride) :
    i * stride + size ≤ j * stride ∨ j * stride + size' ≤ i * stride := by
  rcases Nat.lt_or_gt_of_ne differ with before | behind
  · have next : (i + 1) * stride ≤ j * stride := Nat.mul_le_mul_right _ before
    rw [Nat.succ_mul] at next
    omega
  · have next : (j + 1) * stride ≤ i * stride := Nat.mul_le_mul_right _ behind
    rw [Nat.succ_mul] at next
    omega

theorem Holding.slot_set (h : Holding frame got fp slots buf) {index : Nat}
    (inside : index < fp.unitSlotsSize) (i : Nat) :
    (slots.set index (frame.unit index).length).getD i 0 =
      if i ∈ insert index got then (frame.unit i).length else 0 := by
  have length := h.slots_count
  rw [List.getD_eq_getElem?_getD, List.getElem?_set]
  by_cases same : index = i
  · subst same
    rw [if_pos rfl, if_pos (by omega), if_pos (Finset.mem_insert_self _ _)]
    rfl
  · rw [if_neg same, ← List.getD_eq_getElem?_getD, h.slot_eq]
    simp [Finset.mem_insert, Ne.symm same]

theorem Holding.read_stored (some_source : frame.source ≠ []) (h : Holding frame got fp slots buf)
    {index : Nat} (absent : index ∉ got) (index_lt : index < frame.unitCount) {buf' : Bytes}
    (written : write buf (index * fp.bufStridePerUnit) (frame.unit index) = some buf') {i : Nat}
    (bound : i < fp.unitSlotsSize) :
    read buf' (i * fp.bufStridePerUnit) frame.unitSize =
      some (if i ∈ insert index got then frame.padded i else List.replicate frame.unitSize 0) := by
  have short := (frame.unit_length some_source index_lt).2
  have inside : index < fp.unitSlotsSize := by
    have := frame.unitCount_le
    have := h.slotsSize
    omega
  have narrow := h.narrow
  rw [h.size_eq] at narrow
  by_cases same : i = index
  · subst same
    have before := h.read_eq i bound
    rw [if_neg absent] at before
    rw [read_of_write_front written before short, if_pos (Finset.mem_insert_self _ _), VideoFrame.padded,
      List.rightpad, List.drop_replicate]
  · have before := h.read_eq i bound
    rw [read_of_write_disjoint written (strides_disjoint same short narrow), before]
    simp [Finset.mem_insert, same]

theorem Holding.putUnit (some_source : frame.source ≠ []) (h : Holding frame got fp slots buf)
    {packet : TakionAVPacket} (isUnit : frame.IsUnit packet) :
    ∃ fp' err slots' buf', fp.putUnit packet = .ok (fp', err) ∧
      Holding frame (insert packet.unitIndex got) fp' slots' buf' := by
  have index := isUnit.index_lt
  have length := frame.unit_length some_source index
  have size : packet.dataSize = (frame.unit packet.unitIndex).length := by
    rw [TakionAVPacket.dataSize, isUnit.data_eq]
  have checked : SizeChecked fp packet := ⟨by omega, by rw [h.size_eq]; omega⟩
  have inside : packet.unitIndex < fp.unitSlotsSize := by
    have := frame.unitCount_le
    have := h.slotsSize
    omega
  obtain ⟨slots', buf', hslots, hbuf, -, -, outcome⟩ := putUnit_checked h.toReady checked inside
  rw [h.slots_eq] at hslots
  rw [h.buf_eq] at hbuf
  obtain rfl := Option.some.inj hslots
  obtain rfl := Option.some.inj hbuf
  rw [h.slot_eq] at outcome
  rcases outcome with ⟨taken, refused⟩ | ⟨empty, buf', stored, put⟩
  · have member : packet.unitIndex ∈ got := by
      by_contra absent
      exact taken (if_neg absent)
    refine ⟨fp, _, slots, buf, refused, ?_⟩
    rwa [Finset.insert_eq_self.mpr member]
  · have absent : packet.unitIndex ∉ got := by
      intro member
      rw [if_pos member] at empty
      omega
    have written : write buf (packet.unitIndex * fp.bufStridePerUnit) packet.data = some buf' := by
      rcases stored with ⟨flushed, -⟩ | ⟨-, written⟩
      · rw [h.flushed_eq] at flushed
        cases flushed
      · exact written
    obtain ⟨fp', err, put', ready⟩ := putUnit_ready h.toReady checked inside
    rw [put] at put'
    obtain ⟨rfl, rfl⟩ := Prod.mk.inj (Except.ok.inj put')
    have counted := @countUnit_counts frame got { fp with
      unitSlots := some (slots.set packet.unitIndex packet.dataSize), frameBuf := some buf' }
      packet.unitIndex h.source_eq h.sourceReceived_eq h.fecReceived_eq absent
    refine ⟨_, _, slots.set packet.unitIndex packet.dataSize, buf', put, ready, ?_, ?_, ?_, ?_, ?_, ?_, ?_, ?_,
      ?_, counted.1, counted.2⟩
    · rw [countUnit_flushed, h.flushed_eq]
    · rw [countUnit_source, h.source_eq]
    · rw [countUnit_fec, h.fec_eq]
    · rw [countUnit_size, h.size_eq]
    · rw [countUnit_slots]
    · rw [countUnit_buf]
    · intro i
      rw [size]
      exact h.slot_set inside i
    · intro i bound
      rw [countUnit_slotsSize] at bound
      rw [countUnit_stride]
      rw [isUnit.data_eq] at written
      exact h.read_stored some_source absent index written bound
    · intro i member
      rcases Finset.mem_insert.mp member with rfl | old
      · exact index
      · exact h.got_lt i old

theorem Holding.receive (some_source : frame.source ≠ []) (packets : List TakionAVPacket)
    (h : Holding frame got fp slots buf) (units : ∀ packet ∈ packets, frame.IsUnit packet) :
    ∃ fp' slots' buf', fp.receive packets = .ok fp' ∧
      Holding frame (VideoFrame.unitIndices packets ∪ got) fp' slots' buf' := by
  induction packets generalizing got fp slots buf with
  | nil => exact ⟨fp, slots, buf, rfl, by simpa [VideoFrame.unitIndices] using h⟩
  | cons packet packets ih =>
      obtain ⟨fp1, err, slots1, buf1, put, holding⟩ :=
        h.putUnit some_source (units packet List.mem_cons_self)
      obtain ⟨fp2, slots2, buf2, received, holding⟩ :=
        ih holding fun p member => units p (List.mem_cons_of_mem _ member)
      refine ⟨fp2, slots2, buf2, ?_, ?_⟩
      · rw [FrameProcessor.receive, put, ok_bind]
        exact received
      · convert holding using 1
        simp [VideoFrame.unitIndices, Finset.union_insert, Finset.insert_union]

end Holding
end FrameProcessor
end Chiaki
