import Chiaki.Frame.Reachable
import Chiaki.Frame.Reception

/-!
# Assembling a frame

With all source units there, `flush` yields their payloads in the order of their indices, whatever order
they arrived in.
-/

namespace Chiaki
open Memory Machine

namespace FrameProcessor

theorem flush_of_compact {jerasure : Jerasure} {ndebug : Bool} {outcome : FlushOutcome}
    {received fp : FrameProcessor} {result : FlushResult} {buf buf' : Bytes} {cur : Nat}
    (going : ¬ (received.unitsSourceExpected = 0 || received.flushed) = true)
    (corrected : received.correct jerasure ndebug outcome = .ok (fp, result))
    (buf_eq : fp.frameBuf = some buf)
    (compacted : fp.compact fp.unitsSourceExpected 0 0 (some buf) = .ok (some buf', cur)) :
    ∃ fp', received.flush jerasure ndebug outcome = .ok (fp', result, some (buf'.take cur)) := by
  refine ⟨{ fp with frameBuf := some buf', streamStats := fp.streamStats.frame cur }, ?_⟩
  rw [FrameProcessor.flush, if_neg going, corrected, ok_bind, buf_eq, compacted, ok_bind]
  rfl

/-- The start of every source unit is what the frame says, whether it was received or restored. -/
structure Whole (frame : VideoFrame) (fp : FrameProcessor) (slots : List Nat) (buf : Bytes) : Prop
    extends Ready fp where
  source_eq : fp.unitsSourceExpected = frame.source.length
  slots_eq : fp.unitSlots = some slots
  buf_eq : fp.frameBuf = some buf
  slots_count : slots.length = fp.unitSlotsSize
  blocks_length : buf.length = fp.frameBufSize + videoBufferPaddingSize
  slot_eq : ∀ i, i < frame.source.length → slots.getD i 0 = (frame.unit i).length
  read_eq : ∀ i, i < frame.source.length →
    read buf (i * fp.bufStridePerUnit) frame.unitSize = some (frame.padded i)

section Whole
variable {frame : VideoFrame} {fp : FrameProcessor} {slots : List Nat} {buf : Bytes}

theorem Holding.whole {got : Finset Nat} (h : Holding frame got fp slots buf)
    (complete : ∀ i, i < frame.source.length → i ∈ got) : Whole frame fp slots buf where
  toReady := h.toReady
  source_eq := h.source_eq
  slots_eq := h.slots_eq
  buf_eq := h.buf_eq
  slots_count := h.slots_count
  blocks_length := h.blocks_length
  slot_eq i source := by rw [h.slot_eq, if_pos (complete i source)]
  read_eq i source := by
    have more := h.slotsSize
    rw [h.read_eq i (by omega), if_pos (complete i source)]

theorem Whole.joined (h : Whole frame fp slots buf) (left i : Nat)
    (source : i + left ≤ frame.source.length) :
    Memory.joined buf (segments slots fp.bufStridePerUnit left i) =
      (List.range' i left).flatMap fun j => (frame.unit j).drop 2 := by
  induction left generalizing i with
  | zero => rfl
  | succ left ih =>
      have member := frame.unit_source (i := i) (by omega)
      have enough := (frame.source_size _ member).1
      have here := part_of_read (h.read_eq i (by omega)) enough
      rw [segments, h.slot_eq i (by omega), if_neg (by omega), List.range'_succ, List.flatMap_cons,
        ← ih (i + 1) (by omega), ← here]
      rfl

theorem Whole.compact (h : Whole frame fp slots buf) :
    ∃ buf' cur, fp.compact fp.unitsSourceExpected 0 0 (some buf) = .ok (some buf', cur) ∧
      buf'.take cur = frame.payload := by
  obtain ⟨buf', compacted, -, content, -, -⟩ :=
    h.toReady.compact h.slots_eq h.slots_count h.blocks_length le_rfl
  refine ⟨buf', _, compacted, ?_⟩
  have units : (List.range' 0 frame.source.length).map frame.unit = frame.source := by
    apply List.ext_getElem (by simp)
    intro i low high
    rw [List.getElem_map, List.getElem_range', VideoFrame.unit, List.getD_append _ _ _ _ (by omega),
      List.getD_eq_getElem _ _ (by omega)]
    congr 1
    omega
  rw [content, h.source_eq, h.joined _ 0 (Nat.zero_add _).le, VideoFrame.payload]
  conv_rhs => rw [← units, List.flatMap_map]

theorem Whole.flush {jerasure : Jerasure} {ndebug : Bool} {outcome : FlushOutcome}
    {received : FrameProcessor} {result : FlushResult} (h : Whole frame fp slots buf)
    (going : ¬ (received.unitsSourceExpected = 0 || received.flushed) = true)
    (corrected : received.correct jerasure ndebug outcome = .ok (fp, result)) :
    ∃ fp', received.flush jerasure ndebug outcome = .ok (fp', result, some frame.payload) := by
  obtain ⟨buf', cur, compacted, content⟩ := h.compact
  rw [← content]
  exact flush_of_compact going corrected h.buf_eq compacted

end Whole

section Arrival
variable (frame : VideoFrame) (some_source : frame.source ≠ [])
variable (few : frame.source.length + frame.fecSlots ≤ unitSlotsMax)
include some_source few

theorem allocFrame_frame {fp : FrameProcessor} (h : Allocated fp) {packet : TakionAVPacket}
    (isUnit : frame.IsUnit packet) :
    ∃ started, fp.allocFrame packet ⟨true, true⟩ = .ok (started, .success) ∧
      Started started frame.source.length frame.fecSlots frame.unitSize := by
  have positive := frame.two_le_unitSize some_source
  have hsize := isUnit.unitSize
  have source := isUnit.sourceUnits
  have enough : ¬ packet.unitsInFrameTotal < packet.unitsInFrameFec := by
    rw [isUnit.total_eq, isUnit.fec_eq, VideoFrame.unitCount]
    omega
  rw [← source] at hsize
  have completes : Completes fp packet ⟨true, true⟩ :=
    ⟨_, hsize, by omega, by rw [source, isUnit.fecUnits]; exact few, fun _ => rfl, fun _ => rfl⟩
  obtain ⟨started, size, done, hsize', -, starts⟩ := allocFrame_completes h enough completes
  obtain rfl := Option.some.inj (hsize.symm.trans hsize')
  rw [source, isUnit.fecUnits] at starts
  exact ⟨started, done, starts⟩

/-- `alloc_frame` with the unit that arrives first, then `put_unit` with every unit. -/
theorem receive_frame {fp : FrameProcessor} (h : Allocated fp) {first : TakionAVPacket}
    {rest : List TakionAVPacket} (units : ∀ packet ∈ first :: rest, frame.IsUnit packet) :
    ∃ started received slots buf, fp.allocFrame first ⟨true, true⟩ = .ok (started, .success) ∧
      started.receive (first :: rest) = .ok received ∧
      Holding frame (VideoFrame.unitIndices (first :: rest)) received slots buf := by
  obtain ⟨started, done, starts⟩ :=
    allocFrame_frame frame some_source few h (units first List.mem_cons_self)
  obtain ⟨slots, buf, holding⟩ := starts.holding some_source
  obtain ⟨received, slots', buf', put, holding'⟩ := holding.receive some_source _ units
  rw [Finset.union_empty] at holding'
  exact ⟨started, received, slots', buf', done, put, holding'⟩

end Arrival

theorem Holding.going {frame : VideoFrame} {got : Finset Nat} {fp : FrameProcessor} {slots : List Nat}
    {buf : Bytes} (h : Holding frame got fp slots buf) (some_source : frame.source ≠ []) :
    ¬ (fp.unitsSourceExpected = 0 || fp.flushed) = true := by
  rw [h.source_eq, h.flushed_eq]
  simpa using some_source

theorem Holding.source_short {frame : VideoFrame} {got : Finset Nat} {fp : FrameProcessor}
    {slots : List Nat} {buf : Bytes} (h : Holding frame got fp slots buf)
    (missing : ¬ ∀ i, i < frame.source.length → i ∈ got) :
    fp.unitsSourceReceived < fp.unitsSourceExpected := by
  simp only [not_forall] at missing
  obtain ⟨i, source, absent⟩ := missing
  have proper : got.filter (· < frame.source.length) ⊂ Finset.range frame.source.length := by
    refine ⟨fun j member => Finset.mem_range.mpr (Finset.mem_filter.mp member).2, fun all => ?_⟩
    exact absent (Finset.mem_filter.mp (all (Finset.mem_range.mpr source))).1
  rw [h.sourceReceived_eq, h.source_eq]
  simpa using Finset.card_lt_card proper

theorem Holding.flush_complete {frame : VideoFrame} {got : Finset Nat} {fp : FrameProcessor}
    {slots : List Nat} {buf : Bytes} (h : Holding frame got fp slots buf)
    (some_source : frame.source ≠ []) (complete : ∀ i, i < frame.source.length → i ∈ got)
    (jerasure : Jerasure) (ndebug : Bool) (outcome : FlushOutcome) :
    ∃ fp', fp.flush jerasure ndebug outcome = .ok (fp', .success, some frame.payload) := by
  apply (h.whole complete).flush (h.going some_source)
  have all : frame.source.length ≤ (got.filter (· < frame.source.length)).card := by
    have inside : Finset.range frame.source.length ⊆ got.filter (· < frame.source.length) := by
      intro i member
      have source := Finset.mem_range.mp member
      exact Finset.mem_filter.mpr ⟨complete i source, source⟩
    simpa using Finset.card_le_card inside
  rw [correct, h.source_eq, h.sourceReceived_eq, if_neg (by omega)]
  rfl

/-- From any state a run can reach, a frame whose source units all arrive is flushed as the concatenation
of their payloads; and no turn of the copying loop touches a source unit that it has not come to. -/
theorem assembles_in_any_order {jerasure : Jerasure} {ndebug : Bool} {ops : List Op}
    {fp : FrameProcessor} {os : List Out}
    (reached : run (step jerasure ndebug) init ops = .ok (fp, os)) (frame : VideoFrame)
    (some_source : frame.source ≠ []) (few : frame.source.length + frame.fecSlots ≤ unitSlotsMax)
    (first : TakionAVPacket) (rest : List TakionAVPacket)
    (units : ∀ packet ∈ first :: rest, frame.IsUnit packet)
    (complete : ∀ i, i < frame.source.length → ∃ packet ∈ first :: rest, packet.unitIndex = i)
    (outcome : FlushOutcome) :
    ∃ started received, fp.allocFrame first ⟨true, true⟩ = .ok (started, .success) ∧
      started.receive (first :: rest) = .ok received ∧
      (∃ fp', received.flush jerasure ndebug outcome = .ok (fp', .success, some frame.payload)) ∧
      ∃ buf, received.frameBuf = some buf ∧ ∀ i, i ≤ frame.source.length →
        ∃ buf' cur, received.compact i 0 0 (some buf) = .ok (some buf', cur) ∧
          cur ≤ i * received.bufStridePerUnit ∧
          ∀ j, i * received.bufStridePerUnit ≤ j → buf'[j]? = buf[j]? := by
  obtain ⟨started, received, slots, buf, done, put, holding⟩ :=
    receive_frame frame some_source few (reached_allocated reached) units
  have complete' : ∀ i, i < frame.source.length → i ∈ VideoFrame.unitIndices (first :: rest) := by
    intro i source
    obtain ⟨packet, member, rfl⟩ := complete i source
    exact List.mem_toFinset.mpr (List.mem_map_of_mem member)
  refine ⟨started, received, done, put,
    holding.flush_complete some_source complete' jerasure ndebug outcome, buf, holding.buf_eq, ?_⟩
  intro i source
  rw [← holding.source_eq] at source
  obtain ⟨buf', compacted, -, -, bound, behind⟩ := holding.toReady.compact holding.slots_eq
    holding.slots_count holding.blocks_length source
  exact ⟨buf', _, compacted, bound, behind⟩

/-- Two source units, the first a byte shorter than the common size. -/
def twoUnits : VideoFrame where
  unitSize := 4
  source := [[0, 1, 7], [0, 0, 8, 9]]
  fec := [[5, 5, 5, 5]]
  source_size := by decide
  fec_size := by decide

theorem assembles_two_units :
    ∃ started received,
      init.allocFrame (.ofVideoUnit 1 3 1 [0, 0, 8, 9] (by decide)) ⟨true, true⟩ =
        .ok (started, .success) ∧
      started.receive [.ofVideoUnit 1 3 1 [0, 0, 8, 9] (by decide),
        .ofVideoUnit 2 3 1 [5, 5, 5, 5] (by decide), .ofVideoUnit 1 3 1 [0, 0, 8, 9] (by decide),
        .ofVideoUnit 0 3 1 [0, 1, 7] (by decide)] = .ok received ∧
      (∃ fp', received.flush noMatrix false ⟨true, true, true, true⟩ =
        .ok (fp', .success, some [7, 8, 9])) ∧
      ∃ buf, received.frameBuf = some buf ∧ ∀ i, i ≤ 2 →
        ∃ buf' cur, received.compact i 0 0 (some buf) = .ok (some buf', cur) ∧
          cur ≤ i * received.bufStridePerUnit ∧
          ∀ j, i * received.bufStridePerUnit ≤ j → buf'[j]? = buf[j]? := by
  apply @assembles_in_any_order noMatrix false [] init [] rfl twoUnits (by decide) (by decide)
  · intro packet member
    simp only [List.mem_cons, List.not_mem_nil, or_false] at member
    rcases member with rfl | rfl | rfl | rfl <;> exact ⟨rfl, rfl, rfl, by decide, rfl⟩
  · decide

/-! ## Frames that `alloc_frame` or `flush` turn away -/

/-- Assembly as it would be without a limit on the units. -/
def Assembles (frame : VideoFrame) : Prop :=
  ∀ first rest, (∀ packet ∈ first :: rest, frame.IsUnit packet) →
    (∀ i, i < frame.source.length → ∃ packet ∈ first :: rest, packet.unitIndex = i) →
    ∃ started err received fp', init.allocFrame first ⟨true, true⟩ = .ok (started, err) ∧
      started.receive (first :: rest) = .ok received ∧
      received.flush noMatrix false ⟨true, true, true, true⟩ = .ok (fp', .success, some frame.payload)

def fullFrame : VideoFrame where
  unitSize := 2
  source := List.replicate 256 [0, 0]
  fec := [[0, 0]]
  source_size := by
    intro unit member
    rw [List.eq_of_mem_replicate member]
    decide
  fec_size := by decide

def fecOnly : VideoFrame where
  unitSize := 2
  source := []
  fec := [[0, 0]]
  source_size := by decide
  fec_size := by decide

def fullFramePacket (i : Nat) : TakionAVPacket := .ofVideoUnit i 257 1 [0, 0] (by decide)

theorem fullFrame_source : fullFrame.source.length = 256 := List.length_replicate

theorem fullFramePacket_isUnit {i : Nat} (low : i < 256) : fullFrame.IsUnit (fullFramePacket i) := by
  have source : i < fullFrame.source.length := by rwa [fullFrame_source]
  have data : fullFrame.unit i = [0, 0] := List.eq_of_mem_replicate (fullFrame.unit_source source)
  have count : fullFrame.unitCount = 257 := by
    rw [VideoFrame.unitCount, fullFrame_source]
    rfl
  refine ⟨rfl, count.symm, rfl, ?_, data.symm⟩
  rw [count]
  exact low.trans (by decide)

theorem not_assembles_full_and_empty : ¬ Assembles fullFrame ∧ ¬ Assembles fecOnly := by
  constructor
  · intro all
    have refused : init.allocFrame (fullFramePacket 0) ⟨true, true⟩ =
        .ok (init.resetFrame (fullFramePacket 0) 2, .invalidData) := by
      rw [allocFrame_eq _ (by decide) rfl (by decide), allocBuffers, allocSlots, if_pos (by decide)]
      rfl
    have units : ∀ packet ∈ fullFramePacket 0 :: (List.range' 1 255).map fullFramePacket,
        fullFrame.IsUnit packet := by
      intro packet member
      rcases List.mem_cons.mp member with rfl | member
      · exact fullFramePacket_isUnit (by decide)
      · obtain ⟨i, range, rfl⟩ := List.mem_map.mp member
        have bounds := List.mem_range'_1.mp range
        exact fullFramePacket_isUnit (by omega)
    have complete : ∀ i, i < fullFrame.source.length →
        ∃ packet ∈ fullFramePacket 0 :: (List.range' 1 255).map fullFramePacket,
          packet.unitIndex = i := by
      intro i source
      rw [fullFrame_source] at source
      by_cases zero : i = 0
      · exact ⟨_, List.mem_cons_self, zero.symm⟩
      · have range : i ∈ List.range' 1 255 := List.mem_range'_1.mpr ⟨by omega, by omega⟩
        exact ⟨fullFramePacket i, List.mem_cons_of_mem _ (List.mem_map_of_mem range), rfl⟩
    obtain ⟨started, err, received, fp', done, put, -⟩ := all _ _ units complete
    obtain ⟨rfl, -⟩ := Prod.mk.inj (Except.ok.inj (refused.symm.trans done))
    cases put
  · intro all
    obtain ⟨started, err, received, fp', done, put, flushed⟩ :=
      all (.ofVideoUnit 0 1 1 [0, 0] (by decide)) [] (by
        intro packet member
        obtain rfl := List.mem_singleton.mp member
        exact ⟨rfl, rfl, rfl, by decide, rfl⟩) (by decide)
    obtain ⟨rfl, -⟩ := Prod.mk.inj (Except.ok.inj done)
    obtain rfl := Except.ok.inj put
    cases flushed

end FrameProcessor
end Chiaki
