import Chiaki.Lib.Machine
import Chiaki.Frame.Flush

/-!
# The frame processor stays inside its buffers

Two slips let an access leave a block: `put_unit` admits the index right behind the slots, and the early
exits of `alloc_frame` leave the new unit counts and sizes next to the old blocks. A run without them
makes no access outside.
-/

namespace Chiaki
open Memory Machine

namespace FrameProcessor

/-- The size checks of `put_unit`. -/
def SizeChecked (fp : FrameProcessor) (packet : TakionAVPacket) : Prop :=
  packet.dataSize ≠ 0 ∧ packet.dataSize ≤ fp.bufSizePerUnit

theorem putUnit_refused {fp : FrameProcessor} {packet : TakionAVPacket}
    (refused : ¬ SizeChecked fp packet ∨ fp.unitSlotsSize < packet.unitIndex) :
    fp.putUnit packet = .ok (fp, .invalidData) := by
  unfold putUnit
  split
  · rfl
  split
  · rfl
  split
  · rfl
  rename_i low some_data small
  rcases refused with unchecked | high
  · exact absurd ⟨some_data, by omega⟩ unchecked
  · omega

theorem putUnit_unchecked {fp : FrameProcessor} {packet : TakionAVPacket} (checked : SizeChecked fp packet)
    (admitted : packet.unitIndex ≤ fp.unitSlotsSize) :
    fp.putUnit packet = (do
      let size ← slotSize fp.unitSlots packet.unitIndex
      if size ≠ 0 then pure (fp, .invalidData)
      else
        let fp := fp.setSlot packet.unitIndex packet.dataSize
        let fp ← if fp.flushed then pure fp
          else fp.copyToFrame (packet.unitIndex * fp.bufStridePerUnit) packet.data
        pure (fp.countUnit packet.unitIndex, .success)) := by
  rw [putUnit, if_neg (by omega), if_neg checked.1, if_neg (by have := checked.2; omega)]

/-- A unit whose slot is empty is stored; one whose slot is filled is refused. -/
theorem putUnit_placed {fp : FrameProcessor} {packet : TakionAVPacket} {slots : List Nat} {buf : Bytes}
    (checked : SizeChecked fp packet) (admitted : packet.unitIndex ≤ fp.unitSlotsSize)
    (hslots : fp.unitSlots = some slots) (hbuf : fp.frameBuf = some buf)
    (index : packet.unitIndex < slots.length)
    (room : packet.unitIndex * fp.bufStridePerUnit + packet.data.length ≤ buf.length) :
    (slots.getD packet.unitIndex 0 ≠ 0 ∧ fp.putUnit packet = .ok (fp, .invalidData)) ∨
    (slots.getD packet.unitIndex 0 = 0 ∧ ∃ buf',
      (fp.flushed = true ∧ buf' = buf ∨ fp.flushed = false ∧
        write buf (packet.unitIndex * fp.bufStridePerUnit) packet.data = some buf') ∧
      fp.putUnit packet = .ok
        ({ fp with
          unitSlots := some (slots.set packet.unitIndex packet.dataSize)
          frameBuf := some buf' }.countUnit packet.unitIndex, .success)) := by
  rw [putUnit_unchecked checked admitted, hslots, slotSize_eq index, ok_bind]
  by_cases taken : slots.getD packet.unitIndex 0 = 0
  · right
    refine ⟨taken, ?_⟩
    rw [if_neg (by simpa using taken)]
    cases flushed : fp.flushed with
    | true =>
        refine ⟨buf, .inl ⟨rfl, rfl⟩, ?_⟩
        simp only [setSlot, hslots, flushed, if_true, Option.map_some]
        rw [← hbuf]
        rfl
    | false =>
        obtain ⟨buf', written⟩ := exists_write buf packet.data (packet.unitIndex * fp.bufStridePerUnit) room
        refine ⟨buf', .inr ⟨rfl, written⟩, ?_⟩
        simp only [setSlot, hslots, flushed, Bool.false_eq_true, if_false, Option.map_some, copyToFrame,
          hbuf, deref_some, ok_bind, written, inBounds_some]
        rfl
  · left
    refine ⟨taken, ?_⟩
    rw [if_pos taken]
    rfl

section PutUnit
variable {fp : FrameProcessor} {packet : TakionAVPacket} (h : Ready fp)
variable (checked : SizeChecked fp packet) (index : packet.unitIndex < fp.unitSlotsSize)
include h checked index

theorem Ready.room {buf : Bytes} (length : buf.length = fp.frameBufSize + videoBufferPaddingSize) :
    packet.unitIndex * fp.bufStridePerUnit + packet.data.length ≤ buf.length := by
  have fits := h.fits
  have narrow := h.narrow
  have small := checked.2
  simp only [TakionAVPacket.dataSize] at small
  have next : (packet.unitIndex + 1) * fp.bufStridePerUnit =
      packet.unitIndex * fp.bufStridePerUnit + fp.bufStridePerUnit := Nat.succ_mul _ _
  have last : (packet.unitIndex + 1) * fp.bufStridePerUnit ≤
      fp.unitSlotsSize * fp.bufStridePerUnit := Nat.mul_le_mul_right _ (by omega)
  omega

theorem putUnit_checked :
    ∃ slots buf, fp.unitSlots = some slots ∧ fp.frameBuf = some buf ∧
      slots.length = fp.unitSlotsSize ∧ buf.length = fp.frameBufSize + videoBufferPaddingSize ∧
      ((slots.getD packet.unitIndex 0 ≠ 0 ∧ fp.putUnit packet = .ok (fp, .invalidData)) ∨
      (slots.getD packet.unitIndex 0 = 0 ∧ ∃ buf',
        (fp.flushed = true ∧ buf' = buf ∨ fp.flushed = false ∧
          write buf (packet.unitIndex * fp.bufStridePerUnit) packet.data = some buf') ∧
        fp.putUnit packet = .ok
          ({ fp with
            unitSlots := some (slots.set packet.unitIndex packet.dataSize)
            frameBuf := some buf' }.countUnit packet.unitIndex, .success))) := by
  obtain ⟨slots, buf, hslots, hbuf, slots_length, buf_length⟩ := h.blocks (by omega)
  exact ⟨slots, buf, hslots, hbuf, slots_length, buf_length,
    putUnit_placed checked (by omega) hslots hbuf (by omega) (h.room checked index buf_length)⟩

theorem putUnit_ready :
    ∃ fp' err, fp.putUnit packet = .ok (fp', err) ∧ Ready fp' := by
  obtain ⟨slots, buf, hslots, hbuf, slots_length, buf_length, outcome⟩ := putUnit_checked h checked index
  rcases outcome with ⟨-, refused⟩ | ⟨-, buf', stored, put⟩
  · exact ⟨fp, _, refused, h⟩
  · refine ⟨_, _, put, ?_⟩
    have length : buf'.length = fp.frameBufSize + videoBufferPaddingSize := by
      rcases stored with ⟨-, rfl⟩ | ⟨-, written⟩
      · exact buf_length
      · rw [length_of_write written, buf_length]
    have ready : Ready { fp with
        unitSlots := some (slots.set packet.unitIndex packet.dataSize), frameBuf := some buf' } := by
      refine ⟨⟨?_, .inr ⟨buf', rfl, length⟩⟩, h.slotsSize_eq, h.fits, h.narrow, h.wide, h.some_fec, ?_⟩
      · simpa using slots_length
      · intro size member
        rcases List.mem_or_eq_of_mem_set member with old | rfl
        · exact h.sizes size (by rwa [hslots])
        · exact checked.2
    unfold countUnit
    split
    · exact ⟨⟨ready.slots_length, ready.buf_length⟩, ready.slotsSize_eq, ready.fits, ready.narrow,
        ready.wide, ready.some_fec, ready.sizes⟩
    · exact ⟨⟨ready.slots_length, ready.buf_length⟩, ready.slotsSize_eq, ready.fits, ready.narrow,
        ready.wide, ready.some_fec, ready.sizes⟩

end PutUnit

/-! ## Flushing -/

def withBlocks (fp : FrameProcessor) (slots : List Nat) (buf : Bytes) : FrameProcessor :=
  { fp with unitSlots := some slots, frameBuf := some buf }

theorem Ready.withBlocks {fp : FrameProcessor} (h : Ready fp) {slots : List Nat} {buf : Bytes}
    (slots_length : slots.length = fp.unitSlotsSize)
    (buf_length : buf.length = fp.frameBufSize + videoBufferPaddingSize)
    (sizes : ∀ size ∈ slots, size ≤ fp.bufSizePerUnit) : Ready (fp.withBlocks slots buf) :=
  ⟨⟨slots_length, .inr ⟨buf, rfl, buf_length⟩⟩, h.slotsSize_eq, h.fits, h.narrow, h.wide, h.some_fec,
    sizes⟩

section Flush
variable (jerasure : Jerasure) (ndebug : Bool) (outcome : FlushOutcome) {fp : FrameProcessor}
variable (h : Ready fp) {slots : List Nat} {buf : Bytes}
variable (slots_length : slots.length = fp.unitSlotsSize)
variable (buf_length : buf.length = fp.frameBufSize + videoBufferPaddingSize)
variable (sizes : ∀ size ∈ slots, size ≤ fp.bufSizePerUnit)
include h slots_length buf_length sizes

theorem decodeFrame_ready (erasures : List Nat) :
    ∃ err slots' buf', (fp.withBlocks slots buf).decodeFrame jerasure outcome erasures =
        .ok (fp.withBlocks slots' buf', err) ∧
      slots'.length = fp.unitSlotsSize ∧ buf'.length = fp.frameBufSize + videoBufferPaddingSize ∧
      ∀ size ∈ slots', size ≤ fp.bufSizePerUnit := by
  obtain ⟨buf', err, decoded, length⟩ := h.fecDecode jerasure outcome erasures buf_length
  have length' := length.trans buf_length
  rw [decodeFrame]
  simp only [FrameProcessor.withBlocks, decoded, ok_bind]
  by_cases success : err = .success
  · have ready := h.withBlocks slots_length length' sizes
    obtain ⟨slots', restored, slots_length', sizes'⟩ := ready.restoreSizes rfl length'
      fp.unitsSourceExpected 0 (Nat.zero_add _).le slots_length sizes
    refine ⟨.success, slots', buf', ?_, slots_length', length', sizes'⟩
    simp only [FrameProcessor.withBlocks] at restored
    rw [if_neg (by simpa using success), restored, ok_bind]
    rfl
  · refine ⟨.fecFailed, slots, buf', ?_, slots_length, length', sizes⟩
    rw [if_pos success]
    rfl

theorem correct_ready :
    (fp.withBlocks slots buf).correct jerasure ndebug outcome = .error .assertion ∨
    ∃ result slots' buf', (fp.withBlocks slots buf).correct jerasure ndebug outcome =
        .ok (fp.withBlocks slots' buf', result) ∧
      slots'.length = fp.unitSlotsSize ∧ buf'.length = fp.frameBufSize + videoBufferPaddingSize ∧
      ∀ size ∈ slots', size ≤ fp.bufSizePerUnit := by
  unfold correct
  split
  · unfold fec
    split
    · exact .inr ⟨_, slots, buf, rfl, slots_length, buf_length, sizes⟩
    obtain ⟨found, listed⟩ := findErasures_ok slots (fp.withBlocks slots buf).erasuresCount
      (fp.unitsSourceExpected + fp.unitsFecExpected) 0 []
      (by rw [slots_length, h.slotsSize_eq, Nat.zero_add])
    change (findErasures (some slots) (fp.withBlocks slots buf).erasuresCount
      (fp.unitsSourceExpected + fp.unitsFecExpected) 0 [] >>= _) >>= _ = _ ∨ ∃ result slots' buf',
      (findErasures (some slots) (fp.withBlocks slots buf).erasuresCount
        (fp.unitsSourceExpected + fp.unitsFecExpected) 0 [] >>= _) >>= _ = _ ∧ _
    rw [listed, ok_bind]
    cases found with
    | none =>
        cases ndebug with
        | false => exact .inl rfl
        | true => exact .inr ⟨_, slots, buf, rfl, slots_length, buf_length, sizes⟩
    | some found =>
        simp only []
        cases passes : (ndebug || decide (found.length = (fp.withBlocks slots buf).erasuresCount)) with
        | false => exact .inl rfl
        | true =>
            right
            obtain ⟨err, slots', buf', decoded, facts⟩ := decodeFrame_ready jerasure outcome h
              slots_length buf_length sizes
              (found ++ List.replicate ((fp.withBlocks slots buf).erasuresCount - found.length) 0)
            rw [assert_true, ok_bind, decoded, ok_bind]
            exact ⟨_, slots', buf', rfl, facts⟩
  · exact .inr ⟨_, slots, buf, rfl, slots_length, buf_length, sizes⟩

end Flush

theorem flush_ready (jerasure : Jerasure) (ndebug : Bool) (outcome : FlushOutcome) {fp : FrameProcessor}
    (h : Ready fp) :
    fp.flush jerasure ndebug outcome = .error .assertion ∨
    ∃ fp' r, fp.flush jerasure ndebug outcome = .ok (fp', r) ∧ Ready fp' := by
  unfold flush
  split
  · exact .inr ⟨fp, _, rfl, h⟩
  rename_i going
  have source : 0 < fp.unitsSourceExpected := by
    by_contra none
    exact going (by simp [show fp.unitsSourceExpected = 0 by omega])
  obtain ⟨slots, buf, hslots, hbuf, slots_length, buf_length⟩ :=
    h.blocks (by have := h.slotsSize_eq; omega)
  have sizes : ∀ size ∈ slots, size ≤ fp.bufSizePerUnit := by
    intro size member
    exact h.sizes size (by rwa [hslots])
  have same : fp = fp.withBlocks slots buf := by rw [FrameProcessor.withBlocks, ← hslots, ← hbuf]
  rcases correct_ready jerasure ndebug outcome h slots_length buf_length sizes with
    failed | ⟨result, slots', buf', corrected, slots_length', buf_length', sizes'⟩
  · left
    rw [same, failed]
    rfl
  · right
    have ready := h.withBlocks slots_length' buf_length' sizes'
    obtain ⟨buf'', compacted, length, -⟩ := ready.compact rfl slots_length' buf_length' le_rfl
    have ready' := h.withBlocks slots_length' (length.trans buf_length') sizes'
    rw [same, corrected, ok_bind]
    change ∃ fp' r, ((fp.withBlocks slots' buf').compact fp.unitsSourceExpected 0 0 (some buf') >>= _) = _ ∧ _
    rw [show (fp.withBlocks slots' buf').compact fp.unitsSourceExpected 0 0 (some buf') = _ from compacted,
      ok_bind]
    exact ⟨_, _, rfl, ⟨⟨ready'.slots_length, ready'.buf_length⟩, ready'.slotsSize_eq, ready'.fits,
      ready'.narrow, ready'.wide, ready'.some_fec, ready'.sizes⟩⟩

/-! ## Runs -/

inductive Op where
  | allocFrame (packet : TakionAVPacket) (outcome : AllocOutcome)
  | putUnit (packet : TakionAVPacket)
  | flush (outcome : FlushOutcome)

inductive Out where
  | allocated (err : ErrorCode)
  | put (err : ErrorCode)
  | flushed (result : FlushResult) (frame : Option Bytes)

def step (jerasure : Jerasure) (ndebug : Bool) (fp : FrameProcessor) : Op → Checked (FrameProcessor × Out)
  | .allocFrame packet outcome => (fp.allocFrame packet outcome).map fun r => (r.1, .allocated r.2)
  | .putUnit packet => (fp.putUnit packet).map fun r => (r.1, .put r.2)
  | .flush outcome => (fp.flush jerasure ndebug outcome).map fun r => (r.1, .flushed r.2.1 r.2.2)

/-- A call that touches no memory outside the blocks: the unit it accepts has a slot, and a flush finds
a slot for every expected unit. -/
def StepSafe (jerasure : Jerasure) (ndebug : Bool) (fp : FrameProcessor) (op : Op) : Prop :=
  step jerasure ndebug fp op ≠ .error .outOfBounds ∧ step jerasure ndebug fp op ≠ .error .nullPointer ∧
  match op with
  | .allocFrame _ _ => True
  | .putUnit packet => ∀ fp', step jerasure ndebug fp (.putUnit packet) = .ok (fp', .put .success) →
      packet.unitIndex < fp.unitSlotsSize
  | .flush _ => fp.unitsSourceExpected + fp.unitsFecExpected ≤ fp.unitSlotsSize

def RunSafe (jerasure : Jerasure) (ndebug : Bool) (fp : FrameProcessor) (ops : List Op) : Prop :=
  ∀ done op, done ++ [op] <+: ops →
    ∀ t os, run (step jerasure ndebug) fp done = .ok (t, os) → StepSafe jerasure ndebug t op

/-- Whether the last `alloc_frame` behind its first check did not complete. -/
def nextStale (fp : FrameProcessor) (stale : Prop) : Op → Prop
  | .allocFrame packet outcome =>
      if packet.unitsInFrameTotal < packet.unitsInFrameFec then stale else ¬ Completes fp packet outcome
  | _ => stale

/-- The calls that stay clear of the two slips. -/
def Guarded (fp : FrameProcessor) (stale : Prop) : Op → Prop
  | .allocFrame _ _ => True
  | .putUnit packet => SizeChecked fp packet → packet.unitIndex ≤ fp.unitSlotsSize →
      ¬ stale ∧ packet.unitIndex ≠ fp.unitSlotsSize
  | .flush _ => ¬ stale

def GuardedRun (jerasure : Jerasure) (ndebug : Bool) : FrameProcessor → Prop → List Op → Prop
  | _, _, [] => True
  | fp, stale, op :: ops => Guarded fp stale op ∧
      ∀ fp' o, step jerasure ndebug fp op = .ok (fp', o) →
        GuardedRun jerasure ndebug fp' (nextStale fp stale op) ops

structure Inv (fp : FrameProcessor) (stale : Prop) : Prop extends Allocated fp where
  ready : ¬ stale → Ready fp

section Step
variable (jerasure : Jerasure) (ndebug : Bool) {fp : FrameProcessor} {stale : Prop}
variable (h : Inv fp stale)
include h

theorem allocFrame_inv (packet : TakionAVPacket) (outcome : AllocOutcome) :
    ∃ fp' err, fp.allocFrame packet outcome = .ok (fp', err) ∧
      Inv fp' (nextStale fp stale (.allocFrame packet outcome)) := by
  simp only [nextStale]
  by_cases fewer : packet.unitsInFrameTotal < packet.unitsInFrameFec
  · rw [if_pos fewer]
    exact ⟨fp, _, allocFrame_rejected outcome fewer, h⟩
  rw [if_neg fewer]
  by_cases completes : Completes fp packet outcome
  · obtain ⟨fp', size, done, -, positive, started⟩ := allocFrame_completes h.toAllocated fewer completes
    exact ⟨fp', _, done, started.allocated, fun _ => started.ready positive (fecUnits_pos packet)⟩
  · obtain ⟨fp', err, done, -, allocated⟩ := allocFrame_incomplete h.toAllocated fewer completes
    exact ⟨fp', err, done, allocated, fun done => absurd completes done⟩

theorem putUnit_inv {packet : TakionAVPacket} (guarded : Guarded fp stale (.putUnit packet)) :
    ∃ fp' err, fp.putUnit packet = .ok (fp', err) ∧ Inv fp' stale ∧
      (err = .success → packet.unitIndex < fp.unitSlotsSize) := by
  by_cases refused : ¬ SizeChecked fp packet ∨ fp.unitSlotsSize < packet.unitIndex
  · exact ⟨fp, _, putUnit_refused refused, h, by simp⟩
  · have checked : SizeChecked fp packet := by
      by_contra unchecked
      exact refused (.inl unchecked)
    have admitted : packet.unitIndex ≤ fp.unitSlotsSize := by
      by_contra high
      exact refused (.inr (by omega))
    obtain ⟨fresh, index⟩ := guarded checked admitted
    have inside : packet.unitIndex < fp.unitSlotsSize := by omega
    obtain ⟨fp', err, put, ready⟩ := putUnit_ready (h.ready fresh) checked inside
    exact ⟨fp', err, put, ⟨ready.toAllocated, fun _ => ready⟩, fun _ => inside⟩

theorem step_inv {op : Op} (guarded : Guarded fp stale op) :
    StepSafe jerasure ndebug fp op ∧
      ∀ fp' o, step jerasure ndebug fp op = .ok (fp', o) → Inv fp' (nextStale fp stale op) := by
  cases op with
  | allocFrame packet outcome =>
      obtain ⟨fp', err, done, inv⟩ := allocFrame_inv h packet outcome
      have stepped : step jerasure ndebug fp (.allocFrame packet outcome) = .ok (fp', .allocated err) := by
        rw [step, done]
        rfl
      refine ⟨⟨by rw [stepped]; simp, by rw [stepped]; simp, trivial⟩, fun fp'' o same => ?_⟩
      obtain ⟨rfl, -⟩ := Prod.mk.inj (Except.ok.inj (stepped.symm.trans same))
      exact inv
  | putUnit packet =>
      obtain ⟨fp', err, done, inv, inside⟩ := putUnit_inv h guarded
      have stepped : step jerasure ndebug fp (.putUnit packet) = .ok (fp', .put err) := by
        rw [step, done]
        rfl
      refine ⟨⟨by rw [stepped]; simp, by rw [stepped]; simp, fun fp'' same => ?_⟩, fun fp'' o same => ?_⟩
      · obtain ⟨-, accepted⟩ := Prod.mk.inj (Except.ok.inj (stepped.symm.trans same))
        exact inside (Out.put.inj accepted)
      · obtain ⟨rfl, -⟩ := Prod.mk.inj (Except.ok.inj (stepped.symm.trans same))
        exact inv
  | flush outcome =>
      have ready := h.ready guarded
      rcases flush_ready jerasure ndebug outcome ready with failed | ⟨fp', r, done, ready'⟩
      · have stepped : step jerasure ndebug fp (.flush outcome) = .error .assertion := by
          rw [step, failed]
          rfl
        refine ⟨⟨by rw [stepped]; simp, by rw [stepped]; simp, ready.slotsSize_eq.ge⟩, fun fp'' o same => ?_⟩
        cases stepped.symm.trans same
      · have stepped : step jerasure ndebug fp (.flush outcome) = .ok (fp', .flushed r.1 r.2) := by
          rw [step, done]
          rfl
        refine ⟨⟨by rw [stepped]; simp, by rw [stepped]; simp, ready.slotsSize_eq.ge⟩, fun fp'' o same => ?_⟩
        obtain ⟨rfl, -⟩ := Prod.mk.inj (Except.ok.inj (stepped.symm.trans same))
        exact ⟨ready'.toAllocated, fun _ => ready'⟩

theorem run_safe {ops : List Op} (guarded : GuardedRun jerasure ndebug fp stale ops) :
    RunSafe jerasure ndebug fp ops := by
  induction ops generalizing fp stale with
  | nil =>
      rintro done op ⟨rest, none⟩
      simp at none
  | cons first ops ih =>
      obtain ⟨safe, inv⟩ := step_inv jerasure ndebug h guarded.1
      intro done op before t os hrun
      cases done with
      | nil =>
          obtain ⟨rfl, -⟩ := Prod.mk.inj (Except.ok.inj hrun)
          obtain rfl : op = first := by simpa using before
          exact safe
      | cons first' done =>
          obtain ⟨rfl, later⟩ : first' = first ∧ done ++ [op] <+: ops := by simpa using before
          obtain ⟨fp', o, os', stepped, hrest, -⟩ := run_cons_inv hrun
          exact ih (inv fp' o stepped) (guarded.2 fp' o stepped) done op later t os' hrest

end Step

theorem guarded_run_safe (jerasure : Jerasure) (ndebug : Bool) {ops : List Op}
    (guarded : GuardedRun jerasure ndebug init False ops) : RunSafe jerasure ndebug init ops :=
  run_safe jerasure ndebug ⟨init_allocated, fun _ => init_ready⟩ guarded

/-- A library that has no coding matrix to offer. -/
def noMatrix : Jerasure where
  codingMatrix _ _ := false
  matrixDecode _ _ _ units := (false, units)
  decode_shape _ _ _ _ := rfl

theorem guarded_run_safe_one_unit :
    RunSafe noMatrix false init [
      .allocFrame (.ofVideoUnit 0 2 1 [0, 0, 5] (by decide)) ⟨true, true⟩,
      .putUnit (.ofVideoUnit 0 2 1 [0, 0, 5] (by decide)),
      .flush ⟨true, true, true, true⟩] := by
  apply guarded_run_safe
  have completes : ¬ nextStale init False
      (.allocFrame (.ofVideoUnit 0 2 1 [0, 0, 5] (by decide)) ⟨true, true⟩) := by
    rw [nextStale, if_neg (by decide), not_not]
    exact ⟨3, rfl, by decide, by decide, fun _ => rfl, fun _ => rfl⟩
  refine ⟨trivial, fun fp o stepped => ?_⟩
  obtain ⟨rfl, -⟩ := Prod.mk.inj (Except.ok.inj stepped)
  exact ⟨fun _ _ => ⟨completes, by decide +kernel⟩, fun _ _ _ => ⟨completes, fun _ _ _ => trivial⟩⟩

/-- The index behind the last slot passes the check of `put_unit`. -/
theorem not_run_safe_last_index :
    ¬ RunSafe noMatrix false init [
      .allocFrame (.ofVideoUnit 0 2 1 [0, 0, 5] (by decide)) ⟨true, true⟩,
      .putUnit (.ofVideoUnit 2 2 1 [7, 7, 7] (by decide))] := by
  intro safe
  obtain ⟨inside, -⟩ := safe [_] _ List.prefix_rfl _ _ rfl
  exact inside rfl

end FrameProcessor
end Chiaki
