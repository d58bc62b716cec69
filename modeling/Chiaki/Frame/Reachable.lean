import Chiaki.Frame.Bounds

/-!
# The blocks of every reachable frame processor

No call but `alloc_frame` changes a block's size, so the two sizes describe the two blocks after every
run that did not fail, also after one that mixes frames.
-/

namespace Chiaki
open Memory Machine

namespace FrameProcessor

/-- The calls behind `alloc_frame` replace the content of a block and nothing else of it. -/
structure SameBlocks (fp fp' : FrameProcessor) : Prop where
  slotsSize : fp'.unitSlotsSize = fp.unitSlotsSize
  bufSize : fp'.frameBufSize = fp.frameBufSize
  slots : (fp'.unitSlots.getD []).length = (fp.unitSlots.getD []).length
  buf : fp'.frameBuf.map List.length = fp.frameBuf.map List.length

theorem SameBlocks.refl (fp : FrameProcessor) : SameBlocks fp fp := ⟨rfl, rfl, rfl, rfl⟩

theorem SameBlocks.trans {fp fp' fp'' : FrameProcessor} (h : SameBlocks fp fp') (h' : SameBlocks fp' fp'') :
    SameBlocks fp fp'' :=
  ⟨h'.slotsSize.trans h.slotsSize, h'.bufSize.trans h.bufSize, h'.slots.trans h.slots, h'.buf.trans h.buf⟩

theorem SameBlocks.allocated {fp fp' : FrameProcessor} (same : SameBlocks fp fp') (h : Allocated fp) :
    Allocated fp' where
  slots_length := by rw [same.slots, same.slotsSize, h.slots_length]
  buf_length := by
    have lengths := same.buf
    rw [same.bufSize]
    rcases h.buf_length with ⟨missing, no_size⟩ | ⟨buf, here, length⟩
    · rw [missing, Option.map_none, Option.map_eq_none_iff] at lengths
      exact .inl ⟨lengths, no_size⟩
    · rw [here, Option.map_some] at lengths
      obtain ⟨buf', here', length'⟩ := Option.map_eq_some_iff.mp lengths
      exact .inr ⟨buf', here', length'.trans length⟩

theorem setSlot_length (slots : Option (List Nat)) (i size : Nat) :
    ((slots.map fun slots => slots.set i size).getD []).length = (slots.getD []).length := by
  cases slots with
  | none => rfl
  | some slots => exact List.length_set

theorem setSlot_same (fp : FrameProcessor) (i size : Nat) : SameBlocks fp (fp.setSlot i size) :=
  ⟨rfl, rfl, setSlot_length fp.unitSlots i size, rfl⟩

theorem countUnit_same (fp : FrameProcessor) (i : Nat) : SameBlocks fp (fp.countUnit i) := by
  unfold countUnit
  split <;> exact ⟨rfl, rfl, rfl, rfl⟩

theorem inBounds_eq_ok {α : Type} {x : Option α} {a : α} (h : inBounds x = .ok a) : x = some a := by
  cases x with
  | none => cases h
  | some b => exact congrArg some (Except.ok.inj h)

theorem deref_eq_ok {α : Type} {x : Option α} {a : α} (h : deref x = .ok a) : x = some a := by
  cases x with
  | none => cases h
  | some b => exact congrArg some (Except.ok.inj h)

theorem copyToFrame_same {fp fp' : FrameProcessor} {offset : Nat} {data : Bytes}
    (h : fp.copyToFrame offset data = .ok fp') : SameBlocks fp fp' := by
  obtain ⟨buf, here, h⟩ := bind_eq_ok h
  obtain ⟨buf', written, h⟩ := bind_eq_ok h
  obtain rfl := Except.ok.inj h
  refine ⟨rfl, rfl, rfl, ?_⟩
  rw [deref_eq_ok here, Option.map_some, Option.map_some, length_of_write (inBounds_eq_ok written)]

theorem putUnit_same {fp fp' : FrameProcessor} {packet : TakionAVPacket} {err : ErrorCode}
    (h : fp.putUnit packet = .ok (fp', err)) : SameBlocks fp fp' := by
  have unchanged {e : ErrorCode} (h : (pure (fp, e) : Checked _) = .ok (fp', err)) : SameBlocks fp fp' := by
    obtain ⟨rfl, -⟩ := Prod.mk.inj (Except.ok.inj h)
    exact .refl fp
  unfold putUnit at h
  split at h
  · exact unchanged h
  split at h
  · exact unchanged h
  split at h
  · exact unchanged h
  obtain ⟨size, -, h⟩ := bind_eq_ok h
  split at h
  · exact unchanged h
  have set := setSlot_same fp packet.unitIndex packet.dataSize
  dsimp only at h
  split at h
  · obtain ⟨rfl, -⟩ := Prod.mk.inj (Except.ok.inj h)
    exact set.trans (countUnit_same _ _)
  · obtain ⟨stored, copied, h⟩ := bind_eq_ok h
    obtain ⟨rfl, -⟩ := Prod.mk.inj (Except.ok.inj h)
    exact (set.trans (copyToFrame_same copied)).trans (countUnit_same _ _)

theorem fecDecode_length {jerasure : Jerasure} {outcome : FlushOutcome} {buf : Option Bytes}
    {unitSize stride k m : Nat} {erasures : List Nat} {r : Option Bytes × ErrorCode}
    (h : fecDecode jerasure outcome buf unitSize stride k m erasures = .ok r) :
    r.1.map List.length = buf.map List.length := by
  have unchanged {e : ErrorCode} (h : (pure (buf, e) : Checked _) = .ok r) :
      r.1.map List.length = buf.map List.length := by
    obtain rfl := Except.ok.inj h
    rfl
  unfold fecDecode at h
  split at h
  · exact unchanged h
  split at h
  · exact unchanged h
  split at h
  · exact unchanged h
  obtain ⟨block, here, h⟩ := bind_eq_ok h
  obtain ⟨units, -, h⟩ := bind_eq_ok h
  obtain ⟨block', scattered, h⟩ := bind_eq_ok h
  obtain rfl := Except.ok.inj h
  rw [deref_eq_ok here, Option.map_some, Option.map_some, length_of_scatter (inBounds_eq_ok scattered)]

theorem restoreSizes_length {fp : FrameProcessor} {left i : Nat} {slots slots' : Option (List Nat)}
    (h : fp.restoreSizes left i slots = .ok slots') :
    (slots'.getD []).length = (slots.getD []).length := by
  induction left generalizing i slots with
  | zero =>
      obtain rfl := Except.ok.inj h
      rfl
  | succ left ih =>
      obtain ⟨buf, -, h⟩ := bind_eq_ok h
      obtain ⟨head, -, h⟩ := bind_eq_ok h
      split at h
      · obtain ⟨-, -, h⟩ := bind_eq_ok h
        exact ih h
      · obtain ⟨size, -, h⟩ := bind_eq_ok h
        rw [ih h, setSlot_length]

theorem decodeFrame_same {jerasure : Jerasure} {outcome : FlushOutcome} {fp fp' : FrameProcessor}
    {erasures : List Nat} {err : ErrorCode}
    (h : fp.decodeFrame jerasure outcome erasures = .ok (fp', err)) : SameBlocks fp fp' := by
  obtain ⟨r, decoded, h⟩ := bind_eq_ok h
  have length := fecDecode_length decoded
  split at h
  · obtain ⟨rfl, -⟩ := Prod.mk.inj (Except.ok.inj h)
    exact ⟨rfl, rfl, rfl, length⟩
  · obtain ⟨slots, restored, h⟩ := bind_eq_ok h
    obtain ⟨rfl, -⟩ := Prod.mk.inj (Except.ok.inj h)
    exact ⟨rfl, rfl, restoreSizes_length restored, length⟩

/-- A correction leaves the frame as it was, or it decodes. -/
theorem correct_cases {jerasure : Jerasure} {ndebug : Bool} {outcome : FlushOutcome}
    {fp fp' : FrameProcessor} {result : FlushResult}
    (h : fp.correct jerasure ndebug outcome = .ok (fp', result)) :
    result ≠ .failed ∧ (fp' = fp ∨ ∃ erasures err, fp.decodeFrame jerasure outcome erasures = .ok (fp', err)) := by
  unfold correct at h
  split at h
  · obtain ⟨⟨fp1, err⟩, corrected, h⟩ := bind_eq_ok h
    obtain ⟨rfl, rfl⟩ := Prod.mk.inj (Except.ok.inj h)
    refine ⟨by split <;> decide, ?_⟩
    unfold fec at corrected
    split at corrected
    · obtain ⟨rfl, -⟩ := Prod.mk.inj (Except.ok.inj corrected)
      exact .inl rfl
    obtain ⟨found, -, corrected⟩ := bind_eq_ok corrected
    cases found with
    | none =>
        obtain ⟨-, -, corrected⟩ := bind_eq_ok corrected
        obtain ⟨rfl, -⟩ := Prod.mk.inj (Except.ok.inj corrected)
        exact .inl rfl
    | some found =>
        obtain ⟨-, -, corrected⟩ := bind_eq_ok corrected
        exact .inr ⟨_, _, corrected⟩
  · obtain ⟨rfl, rfl⟩ := Prod.mk.inj (Except.ok.inj h)
    exact ⟨by decide, .inl rfl⟩

theorem correct_same {jerasure : Jerasure} {ndebug : Bool} {outcome : FlushOutcome}
    {fp fp' : FrameProcessor} {result : FlushResult}
    (h : fp.correct jerasure ndebug outcome = .ok (fp', result)) : SameBlocks fp fp' := by
  obtain ⟨-, rfl | ⟨erasures, err, decoded⟩⟩ := correct_cases h
  · exact .refl fp'
  · exact decodeFrame_same decoded

theorem compact_length {fp : FrameProcessor} {left i cur cur' : Nat} {buf buf' : Option Bytes}
    (h : fp.compact left i cur buf = .ok (buf', cur')) :
    buf'.map List.length = buf.map List.length := by
  induction left generalizing i cur buf with
  | zero =>
      obtain ⟨rfl, -⟩ := Prod.mk.inj (Except.ok.inj h)
      rfl
  | succ left ih =>
      obtain ⟨size, -, h⟩ := bind_eq_ok h
      split at h
      · exact ih h
      split at h
      · obtain ⟨-, -, h⟩ := bind_eq_ok h
        exact ih h
      obtain ⟨block, here, h⟩ := bind_eq_ok h
      obtain ⟨block', moved, h⟩ := bind_eq_ok h
      rw [ih h, deref_eq_ok here, Option.map_some, Option.map_some,
        length_of_move (inBounds_eq_ok moved)]

theorem flush_same {jerasure : Jerasure} {ndebug : Bool} {outcome : FlushOutcome}
    {fp fp' : FrameProcessor} {r : FlushResult × Option Bytes}
    (h : fp.flush jerasure ndebug outcome = .ok (fp', r)) : SameBlocks fp fp' := by
  unfold flush at h
  split at h
  · obtain ⟨rfl, -⟩ := Prod.mk.inj (Except.ok.inj h)
    exact .refl fp
  obtain ⟨⟨fp1, result⟩, corrected, h⟩ := bind_eq_ok h
  obtain ⟨⟨buf, cur⟩, compacted, h⟩ := bind_eq_ok h
  obtain ⟨rfl, -⟩ := Prod.mk.inj (Except.ok.inj h)
  exact (correct_same corrected).trans ⟨rfl, rfl, rfl, compact_length compacted⟩

theorem allocFrame_allocated {fp : FrameProcessor} (h : Allocated fp) (packet : TakionAVPacket)
    (outcome : AllocOutcome) :
    ∃ fp' err, fp.allocFrame packet outcome = .ok (fp', err) ∧ Allocated fp' := by
  by_cases fewer : packet.unitsInFrameTotal < packet.unitsInFrameFec
  · exact ⟨fp, _, allocFrame_rejected outcome fewer, h⟩
  by_cases completes : Completes fp packet outcome
  · obtain ⟨fp', size, done, -, -, started⟩ := allocFrame_completes h fewer completes
    exact ⟨fp', _, done, started.allocated⟩
  · obtain ⟨fp', err, done, -, allocated⟩ := allocFrame_incomplete h fewer completes
    exact ⟨fp', err, done, allocated⟩

theorem step_allocated (jerasure : Jerasure) (ndebug : Bool) (fp : FrameProcessor) (op : Op)
    (fp' : FrameProcessor) (o : Out) (h : Allocated fp)
    (stepped : step jerasure ndebug fp op = .ok (fp', o)) : Allocated fp' := by
  have map_inv {α : Type} {x : Checked (FrameProcessor × α)} {f : FrameProcessor × α → Out}
      (same : x.map (fun r => (r.1, f r)) = .ok (fp', o)) : ∃ a, x = .ok (fp', a) := by
    cases x with
    | error e => cases same
    | ok r =>
        obtain ⟨rfl, -⟩ := Prod.mk.inj (Except.ok.inj same)
        exact ⟨r.2, rfl⟩
  cases op with
  | allocFrame packet outcome =>
      obtain ⟨err, done⟩ := map_inv stepped
      obtain ⟨fp1, err', done', allocated⟩ := allocFrame_allocated h packet outcome
      obtain ⟨rfl, -⟩ := Prod.mk.inj (Except.ok.inj (done.symm.trans done'))
      exact allocated
  | putUnit packet =>
      obtain ⟨err, done⟩ := map_inv stepped
      exact (putUnit_same done).allocated h
  | flush outcome =>
      obtain ⟨r, done⟩ := map_inv stepped
      exact (flush_same done).allocated h

theorem reached_allocated {jerasure : Jerasure} {ndebug : Bool} {ops : List Op} {fp : FrameProcessor}
    {os : List Out} (reached : run (step jerasure ndebug) init ops = .ok (fp, os)) : Allocated fp :=
  run_preserves Allocated (step_allocated jerasure ndebug) init_allocated reached

end FrameProcessor
end Chiaki
