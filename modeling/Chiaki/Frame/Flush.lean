import Mathlib.Data.List.GetD
import Chiaki.Frame.Allocation

/-!
# The loops of a flush

The loop of `flush` packs the payloads of the source units. All accesses of a flush stay inside the
two blocks when the frame processor describes one frame.
-/

namespace Chiaki
open Memory

namespace FrameProcessor

/-! ## Compaction -/

/-- What the loop of `flush` moves: the payload of every unit behind its two-byte prefix. -/
def segments (slots : List Nat) (stride : Nat) : (left i : Nat) → List (Nat × Nat)
  | 0, _ => []
  | left + 1, i =>
      if slots.getD i 0 < 2 then segments slots stride left (i + 1)
      else (i * stride + 2, slots.getD i 0 - 2) :: segments slots stride left (i + 1)

theorem Ascending.mono {limit floor floor' : Nat} {row : List (Nat × Nat)} (low : floor' ≤ floor)
    (h : Ascending limit floor row) : Ascending limit floor' row := by
  cases row with
  | nil => trivial
  | cons s rest => exact ⟨low.trans h.1, h.2⟩

theorem segments_ascending {slots : List Nat} {stride : Nat} (sizes : ∀ size ∈ slots, size ≤ stride)
    (limit left i : Nat) (inside : (i + left) * stride ≤ limit) :
    Ascending limit (i * stride) (segments slots stride left i) := by
  induction left generalizing i with
  | zero => trivial
  | succ left ih =>
      have next : (i + 1) * stride = i * stride + stride := Nat.succ_mul _ _
      have later := ih (i + 1) (by rwa [Nat.add_right_comm, Nat.add_assoc])
      have last : (i + 1) * stride ≤ (i + (left + 1)) * stride := Nat.mul_le_mul_right _ (by omega)
      unfold segments
      split
      · exact Ascending.mono (by omega) later
      · rename_i big
        have bound : i < slots.length := by
          by_contra outside
          rw [List.getD_eq_default _ _ (by omega)] at big
          omega
        have small : slots.getD i 0 ≤ stride := by
          rw [List.getD_eq_getElem _ _ bound]
          exact sizes _ (List.getElem_mem bound)
        exact ⟨by omega, by omega, Ascending.mono (by omega) later⟩

theorem slotSize_eq {slots : List Nat} {i : Nat} (bound : i < slots.length) :
    slotSize (some slots) i = .ok (slots.getD i 0) := by
  rw [slotSize, deref_some, ok_bind, List.getElem?_eq_getElem bound, inBounds_some,
    List.getD_eq_getElem _ _ bound]

theorem hexdump_eq {buf : Bytes} {offset : Nat} (inside : offset + hexdumpSize ≤ buf.length) :
    hexdump (some buf) offset = .ok () := by
  rw [hexdump, deref_some, ok_bind, read_eq_some inside]
  rfl

theorem compact_of_pack {fp : FrameProcessor} {slots : List Nat} (here : fp.unitSlots = some slots)
    (left i cur : Nat) {buf buf' : Bytes} {cur' : Nat} (all : i + left ≤ slots.length)
    (dumps : ∀ j, j < i + left → j * fp.bufSizePerUnit + hexdumpSize ≤ buf.length)
    (packed : pack (segments slots fp.bufStridePerUnit left i) cur buf = some (buf', cur')) :
    fp.compact left i cur (some buf) = .ok (some buf', cur') := by
  induction left generalizing i cur buf with
  | zero =>
      obtain ⟨rfl, rfl⟩ := Prod.mk.inj (Option.some.inj packed)
      rfl
  | succ left ih =>
      have later {block : Bytes} (same : block.length = buf.length) :
          ∀ j, j < i + 1 + left → j * fp.bufSizePerUnit + hexdumpSize ≤ block.length := by
        intro j bound
        rw [same]
        exact dumps j (by omega)
      rw [compact, here, slotSize_eq (by omega), ok_bind]
      unfold segments at packed
      by_cases small : slots.getD i 0 < 2
      · rw [if_pos small] at packed
        have rest := ih (i + 1) cur (by omega) (later rfl) packed
        split
        · exact rest
        · rw [hexdump_eq (dumps i (by omega)), ok_bind]
          exact rest
      · rw [if_neg small] at packed
        obtain ⟨moved, hmove, packed⟩ := Option.bind_eq_some_iff.mp packed
        rw [if_neg (by omega), if_neg small, deref_some, ok_bind, hmove, inBounds_some, ok_bind]
        exact ih (i + 1) _ (by omega) (later (length_of_move hmove)) packed

/-! ## Frames whose fields belong together -/

/-- The slots are those of the expected units and the buffer has room for all of them. -/
structure Ready (fp : FrameProcessor) : Prop extends Allocated fp where
  slotsSize_eq : fp.unitSlotsSize = fp.unitsSourceExpected + fp.unitsFecExpected
  fits : fp.unitSlotsSize * fp.bufStridePerUnit ≤ fp.frameBufSize
  narrow : fp.bufSizePerUnit ≤ fp.bufStridePerUnit
  wide : 0 < fp.unitSlotsSize → 16 ≤ fp.bufStridePerUnit
  some_fec : 0 < fp.unitsSourceExpected → 0 < fp.unitsFecExpected
  sizes : ∀ size ∈ fp.unitSlots.getD [], size ≤ fp.bufSizePerUnit

theorem init_ready : Ready init :=
  ⟨init_allocated, rfl, le_rfl, le_rfl, by decide, by decide, by simp [init]⟩

theorem Started.ready {fp : FrameProcessor} {source fec size : Nat} (h : Started fp source fec size)
    (positive : size ≠ 0) (some_fec : 0 < fec) : Ready fp where
  toAllocated := h.allocated
  slotsSize_eq := by rw [h.slotsSize_eq, h.source_eq, h.fec_eq]
  fits := by
    rw [h.slotsSize_eq, h.stride_eq]
    exact h.fits
  narrow := by
    rw [h.size_eq, h.stride_eq]
    exact le_stride size
  wide _ := by
    rw [h.stride_eq]
    exact sixteen_le_stride positive
  some_fec _ := by
    rw [h.fec_eq]
    exact some_fec
  sizes := by
    intro s member
    rw [h.slots_eq, Option.getD_some] at member
    rw [List.eq_of_mem_replicate member]
    exact Nat.zero_le _

section Ready
variable {fp : FrameProcessor} (h : Ready fp)
include h

theorem Ready.blocks (some_slot : 0 < fp.unitSlotsSize) :
    ∃ slots buf, fp.unitSlots = some slots ∧ fp.frameBuf = some buf ∧
      slots.length = fp.unitSlotsSize ∧ buf.length = fp.frameBufSize + videoBufferPaddingSize := by
  have wide := h.wide some_slot
  have fits := h.fits
  have room : 16 ≤ fp.unitSlotsSize * fp.bufStridePerUnit := by
    calc 16 ≤ fp.bufStridePerUnit := wide
      _ ≤ fp.unitSlotsSize * fp.bufStridePerUnit := Nat.le_mul_of_pos_left _ some_slot
  obtain ⟨buf, here, length⟩ := h.buf_length.resolve_left (by rintro ⟨-, no_size⟩; omega)
  cases slots : fp.unitSlots with
  | none =>
      have length := h.slots_length
      rw [slots, Option.getD_none, List.length_nil] at length
      omega
  | some l =>
      refine ⟨l, buf, rfl, here, ?_, length⟩
      have length := h.slots_length
      rwa [slots] at length

/-- A dump at a source unit ends before the buffer does: a unit and the padding follow. -/
theorem Ready.dump_fits {i : Nat} (source : i < fp.unitsSourceExpected) :
    fp.bufStridePerUnit * i + hexdumpSize ≤ fp.frameBufSize + videoBufferPaddingSize := by
  have some_fec := h.some_fec (by omega)
  have slots := h.slotsSize_eq
  have wide := h.wide (by omega)
  have fits := h.fits
  have more : (i + 2) * fp.bufStridePerUnit ≤ fp.unitSlotsSize * fp.bufStridePerUnit :=
    Nat.mul_le_mul_right _ (by omega)
  have split : (i + 2) * fp.bufStridePerUnit = fp.bufStridePerUnit * i + 2 * fp.bufStridePerUnit := by
    ring
  simp only [hexdumpSize, videoBufferPaddingSize]
  omega

/-- The first `count` turns of the loop of `flush`: the cursor stays below the next unit, and from
there on the buffer is untouched. -/
theorem Ready.compact {slots : List Nat} {buf : Bytes} (here : fp.unitSlots = some slots)
    (slots_length : slots.length = fp.unitSlotsSize)
    (buf_length : buf.length = fp.frameBufSize + videoBufferPaddingSize) {count : Nat}
    (source : count ≤ fp.unitsSourceExpected) :
    ∃ buf', fp.compact count 0 0 (some buf) =
        .ok (some buf', total (segments slots fp.bufStridePerUnit count 0)) ∧
      buf'.length = buf.length ∧
      buf'.take (total (segments slots fp.bufStridePerUnit count 0)) =
        joined buf (segments slots fp.bufStridePerUnit count 0) ∧
      total (segments slots fp.bufStridePerUnit count 0) ≤ count * fp.bufStridePerUnit ∧
      ∀ i, count * fp.bufStridePerUnit ≤ i → buf'[i]? = buf[i]? := by
  have all := h.slotsSize_eq
  have narrow := h.narrow
  have fits := h.fits
  have sizes : ∀ size ∈ slots, size ≤ fp.bufStridePerUnit := by
    intro size member
    have small := h.sizes size (by rwa [here])
    omega
  have inside : count * fp.bufStridePerUnit ≤ buf.length := by
    calc count * fp.bufStridePerUnit
        ≤ fp.unitSlotsSize * fp.bufStridePerUnit := Nat.mul_le_mul_right _ (by omega)
      _ ≤ buf.length := by omega
  have ascending := segments_ascending sizes (count * fp.bufStridePerUnit) count 0 (by simp)
  obtain ⟨buf', packed, length, content, bound, behind⟩ :=
    pack_ascending ascending inside (Nat.zero_le _) (Nat.zero_le _)
  rw [Nat.zero_add] at packed content bound
  refine ⟨buf', ?_, length, by simpa using content, bound, behind⟩
  refine compact_of_pack here _ 0 0 (by omega) ?_ packed
  intro j before
  have dump := h.dump_fits (i := j) (by omega)
  have lower : j * fp.bufSizePerUnit ≤ fp.bufStridePerUnit * j := by
    rw [Nat.mul_comm]
    exact Nat.mul_le_mul_right _ narrow
  omega

/-! ## Error correction -/

omit h in
theorem findErasures_ok (slots : List Nat) (count left i : Nat) (found : List Nat)
    (all : i + left ≤ slots.length) :
    ∃ r, findErasures (some slots) count left i found = .ok r := by
  induction left generalizing i found with
  | zero => exact ⟨_, rfl⟩
  | succ left ih =>
      rw [findErasures, slotSize_eq (by omega), ok_bind]
      split
      · split
        · exact ⟨_, rfl⟩
        · exact ih (i + 1) _ (by omega)
      · exact ih (i + 1) _ (by omega)

omit h in
/-- With the memory for it the decoder sees the units at their places and leaves its result there. -/
theorem fecDecode_decoded {jerasure : Jerasure} {outcome : FlushOutcome} {buf : Bytes}
    {unitSize stride k m : Nat} (narrow : unitSize ≤ stride) (inside : stride * (k + m) ≤ buf.length)
    (matrix : jerasure.codingMatrix k m = true)
    (memory : (outcome.jerasures && outcome.dataPtrs && outcome.codingPtrs) = true)
    (erasures : List Nat) :
    ∃ units buf', gather buf stride unitSize (k + m) 0 = some units ∧
      Chiaki.fecDecode jerasure outcome (some buf) unitSize stride k m erasures =
        .ok (some buf', if (jerasure.matrixDecode k m erasures units).1 then .success else .fecFailed) ∧
      gather buf' stride unitSize (k + m) 0 = some (jerasure.matrixDecode k m erasures units).2 ∧
      buf'.length = buf.length := by
  obtain ⟨units, gathered⟩ : ∃ units, gather buf stride unitSize (k + m) 0 = some units :=
    ⟨_, gather_eq narrow (by rwa [Nat.zero_add])⟩
  obtain ⟨count, -⟩ := gather_eq_some_iff.mp gathered
  have lengths := length_of_gather gathered
  have shape := jerasure.decode_shape k m erasures units
  cases decoded : jerasure.matrixDecode k m erasures units with
  | mk done units' =>
      rw [decoded] at shape
      have count' : units'.length = k + m := by
        have same := congrArg List.length shape
        simpa [count] using same
      have lengths' : ∀ unit ∈ units', unit.length = unitSize := by
        intro unit member
        have same : unit.length ∈ units.map List.length := by
          rw [← shape]
          exact List.mem_map_of_mem member
        obtain ⟨unit', member', same⟩ := List.mem_map.mp same
        rw [← same]
        exact lengths unit' member'
      obtain ⟨buf', scattered, length, -, reads⟩ := exists_scatter 0 buf narrow lengths'
        (by rwa [count', Nat.zero_add])
      refine ⟨units, buf', gathered, ?_, ?_, length⟩
      · rw [Chiaki.fecDecode, if_neg (by omega), matrix, if_neg (by decide), memory, if_neg (by decide),
          deref_some, ok_bind, gathered, inBounds_some, ok_bind]
        simp only [decoded, scattered, inBounds_some, ok_bind]
        rfl
      · rw [decoded]
        refine gather_eq_some_iff.mpr ⟨count', fun j bound => ?_⟩
        have there := List.getElem?_eq_getElem (count'.symm ▸ bound : j < units'.length)
        rw [there]
        exact reads j _ there

theorem Ready.fecDecode (jerasure : Jerasure) (outcome : FlushOutcome) (erasures : List Nat) {buf : Bytes}
    (buf_length : buf.length = fp.frameBufSize + videoBufferPaddingSize) :
    ∃ buf' err, Chiaki.fecDecode jerasure outcome (some buf) fp.bufSizePerUnit fp.bufStridePerUnit
        fp.unitsSourceExpected fp.unitsFecExpected erasures = .ok (some buf', err) ∧
      buf'.length = buf.length := by
  have slots := h.slotsSize_eq
  have fits := h.fits
  have narrow := h.narrow
  have inside : fp.bufStridePerUnit * (fp.unitsSourceExpected + fp.unitsFecExpected) ≤ buf.length := by
    rw [← slots, Nat.mul_comm]
    omega
  by_cases ready : jerasure.codingMatrix fp.unitsSourceExpected fp.unitsFecExpected = true ∧
      (outcome.jerasures && outcome.dataPtrs && outcome.codingPtrs) = true
  · obtain ⟨units, buf', -, decoded, -, length⟩ :=
      fecDecode_decoded narrow inside ready.1 ready.2 erasures
    exact ⟨buf', _, decoded, length⟩
  · refine ⟨buf, .memory, ?_, rfl⟩
    rw [Chiaki.fecDecode, if_neg (by omega)]
    split
    · rfl
    · rename_i matrix
      rw [if_pos]
      · rfl
      · by_contra memory
        exact ready ⟨by simpa using matrix, by simpa using memory⟩

theorem Ready.restoreSizes {buf : Bytes} (here : fp.frameBuf = some buf)
    (buf_length : buf.length = fp.frameBufSize + videoBufferPaddingSize) (left i : Nat)
    (all : i + left ≤ fp.unitsSourceExpected) {slots : List Nat}
    (slots_length : slots.length = fp.unitSlotsSize)
    (sizes : ∀ size ∈ slots, size ≤ fp.bufSizePerUnit) :
    ∃ slots', fp.restoreSizes left i (some slots) = .ok (some slots') ∧
      slots'.length = fp.unitSlotsSize ∧ ∀ size ∈ slots', size ≤ fp.bufSizePerUnit := by
  induction left generalizing i slots with
  | zero => exact ⟨slots, rfl, slots_length, sizes⟩
  | succ left ih =>
      have expected := h.slotsSize_eq
      have dump := h.dump_fits (i := i) (by omega)
      have head : fp.bufStridePerUnit * i + 2 ≤ buf.length := by
        simp only [hexdumpSize] at dump
        omega
      rw [FrameProcessor.restoreSizes, here, deref_some, ok_bind, read_eq_some head, inBounds_some,
        ok_bind]
      split
      · rw [hexdump_eq (by omega), ok_bind]
        exact ih (i + 1) (by omega) slots_length sizes
      · rw [slotSize_eq (by omega), ok_bind]
        apply ih (i + 1) (by omega)
        · rw [List.length_set, slots_length]
        · intro size member
          rcases List.mem_or_eq_of_mem_set member with old | rfl
          · exact sizes size old
          · exact Nat.sub_le _ _

end Ready
end FrameProcessor
end Chiaki
