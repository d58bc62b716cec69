import Chiaki.Frame.Reachable

/-!
# Flushed frames

`flushed` is tested by `flush` and by `put_unit` and set by neither, so a frame that was handed out is still
written to and handed out again.
-/

namespace Chiaki
open Memory Machine

namespace FrameProcessor
namespace Flushed

/-- Whether the frame was flushed with success since the last `alloc_frame`. -/
def next (done : Bool) : Op → Out → Bool
  | .allocFrame _ _, _ => false
  | .flush _, .flushed .success _ => true
  | .flush _, .flushed .fecSuccess _ => true
  | _, _ => done

def step (jerasure : Jerasure) (ndebug : Bool) (s : FrameProcessor × Bool) (op : Op) :
    Checked ((FrameProcessor × Bool) × Out) :=
  (FrameProcessor.step jerasure ndebug s.1 op).map fun r => ((r.1, next s.2 op r.2), r.2)

/-! ## What is to be shown -/

/-- Another flush of a flushed frame fails, another unit leaves the buffer as it is. -/
def Final (jerasure : Jerasure) (ndebug : Bool) (s : FrameProcessor × Bool) (op : Op) : Prop :=
  s.2 = true →
    match op with
    | .allocFrame _ _ => True
    | .putUnit packet => ∃ fp err, FrameProcessor.step jerasure ndebug s.1 (.putUnit packet) = .ok (fp, .put err) ∧
        fp.frameBuf = s.1.frameBuf
    | .flush outcome => ∃ fp frame,
        FrameProcessor.step jerasure ndebug s.1 (.flush outcome) = .ok (fp, .flushed .failed frame)

/-! ## When it holds -/

/-- A unit that is rejected, or one with the bytes that are there already. -/
def Harmless (fp : FrameProcessor) (packet : TakionAVPacket) : Prop :=
  packet.unitIndex ≤ fp.unitSlotsSize → SizeChecked fp packet →
    ∃ size, slotSize fp.unitSlots packet.unitIndex = .ok size ∧
      (size ≠ 0 ∨ ∃ buf, fp.frameBuf = some buf ∧
        read buf (packet.unitIndex * fp.bufStridePerUnit) packet.dataSize = some packet.data)

def Admits (s : FrameProcessor × Bool) (op : Op) : Prop :=
  s.2 = true →
    match op with
    | .allocFrame _ _ => True
    | .putUnit packet => Harmless s.1 packet
    | .flush _ => False

/-! ## What the calls leave alone -/

/-- What a flush asks for before it does anything. -/
structure SameFrame (fp fp' : FrameProcessor) : Prop where
  expected : fp'.unitsSourceExpected = fp.unitsSourceExpected
  flushed : fp'.flushed = fp.flushed

theorem SameFrame.refl (fp : FrameProcessor) : SameFrame fp fp := ⟨rfl, rfl⟩

theorem countUnit_frame (fp : FrameProcessor) (i : Nat) : SameFrame fp (fp.countUnit i) := by
  unfold countUnit
  split <;> exact ⟨rfl, rfl⟩

theorem countUnit_frameBuf (fp : FrameProcessor) (i : Nat) : (fp.countUnit i).frameBuf = fp.frameBuf := by
  unfold countUnit
  split <;> rfl

theorem putUnit_frame {fp fp' : FrameProcessor} {packet : TakionAVPacket} {err : ErrorCode}
    (h : fp.putUnit packet = .ok (fp', err)) : SameFrame fp fp' := by
  by_cases checked : SizeChecked fp packet ∧ packet.unitIndex ≤ fp.unitSlotsSize
  · rw [putUnit_unchecked checked.1 checked.2] at h
    obtain ⟨size, -, h⟩ := bind_eq_ok h
    split at h
    · obtain ⟨rfl, -⟩ := Prod.mk.inj (Except.ok.inj h)
      exact .refl fp
    dsimp only at h
    split at h
    · obtain ⟨rfl, -⟩ := Prod.mk.inj (Except.ok.inj h)
      have counted := countUnit_frame (fp.setSlot packet.unitIndex packet.dataSize) packet.unitIndex
      exact ⟨counted.expected, counted.flushed⟩
    · obtain ⟨stored, copied, h⟩ := bind_eq_ok h
      obtain ⟨rfl, -⟩ := Prod.mk.inj (Except.ok.inj h)
      have counted := countUnit_frame stored packet.unitIndex
      obtain ⟨buf, -, copied⟩ := bind_eq_ok copied
      obtain ⟨buf', -, copied⟩ := bind_eq_ok copied
      obtain rfl := Except.ok.inj copied
      exact ⟨counted.expected, counted.flushed⟩
  · rw [putUnit_refused (by rwa [← Nat.not_le, ← not_and_or])] at h
    obtain ⟨rfl, -⟩ := Prod.mk.inj (Except.ok.inj h)
    exact .refl fp

theorem correct_frame {jerasure : Jerasure} {ndebug : Bool} {outcome : FlushOutcome} {fp fp' : FrameProcessor}
    {result : FlushResult} (h : fp.correct jerasure ndebug outcome = .ok (fp', result)) :
    SameFrame fp fp' ∧ result ≠ .failed := by
  obtain ⟨succeeded, rfl | ⟨erasures, err, decoded⟩⟩ := correct_cases h
  · exact ⟨.refl fp', succeeded⟩
  · refine ⟨?_, succeeded⟩
    obtain ⟨r, -, decoded⟩ := bind_eq_ok decoded
    split at decoded
    · obtain ⟨rfl, -⟩ := Prod.mk.inj (Except.ok.inj decoded)
      exact ⟨rfl, rfl⟩
    · obtain ⟨slots, -, decoded⟩ := bind_eq_ok decoded
      obtain ⟨rfl, -⟩ := Prod.mk.inj (Except.ok.inj decoded)
      exact ⟨rfl, rfl⟩

theorem flush_frame {jerasure : Jerasure} {ndebug : Bool} {outcome : FlushOutcome} {fp fp' : FrameProcessor}
    {result : FlushResult} {frame : Option Bytes}
    (h : fp.flush jerasure ndebug outcome = .ok (fp', result, frame)) :
    SameFrame fp fp' ∧ (result = .failed ↔ fp.unitsSourceExpected = 0 ∨ fp.flushed = true) := by
  unfold flush at h
  split at h
  · rename_i refused
    obtain ⟨rfl, result_eq⟩ := Prod.mk.inj (Except.ok.inj h)
    obtain ⟨rfl, -⟩ := Prod.mk.inj result_eq
    exact ⟨.refl fp, by simpa using refused⟩
  · rename_i going
    obtain ⟨⟨fp1, result'⟩, corrected, h⟩ := bind_eq_ok h
    obtain ⟨⟨buf, cur⟩, -, h⟩ := bind_eq_ok h
    obtain ⟨rfl, result_eq⟩ := Prod.mk.inj (Except.ok.inj h)
    obtain ⟨rfl, -⟩ := Prod.mk.inj result_eq
    obtain ⟨same, done⟩ := correct_frame corrected
    exact ⟨⟨same.expected, same.flushed⟩, by simpa [done] using going⟩

/-! ## Steps -/

/-- Nothing tells a flushed frame from one that is still being assembled. -/
def Going (s : FrameProcessor × Bool) : Prop :=
  s.2 = true → s.1.unitsSourceExpected ≠ 0 ∧ s.1.flushed = false

theorem going_step {jerasure : Jerasure} {ndebug : Bool} {s s' : FrameProcessor × Bool} {op : Op} {o : Out}
    (h : Going s) (stepped : step jerasure ndebug s op = .ok (s', o)) : Going s' := by
  obtain ⟨fp, done⟩ := s
  cases op with
  | allocFrame packet outcome =>
      cases allocated : fp.allocFrame packet outcome with
      | error e =>
          simp [step, FrameProcessor.step, allocated, Except.map] at stepped
      | ok r =>
          simp only [step, FrameProcessor.step, allocated, Except.map] at stepped
          obtain ⟨rfl, -⟩ := Prod.mk.inj (Except.ok.inj stepped)
          intro flushed
          cases flushed
  | putUnit packet =>
      cases put : fp.putUnit packet with
      | error e => simp [step, FrameProcessor.step, put, Except.map] at stepped
      | ok r =>
          have same := putUnit_frame put
          simp only [step, FrameProcessor.step, put, Except.map] at stepped
          obtain ⟨rfl, -⟩ := Prod.mk.inj (Except.ok.inj stepped)
          intro flushed
          rw [same.expected, same.flushed]
          exact h flushed
  | flush outcome =>
      cases flush : fp.flush jerasure ndebug outcome with
      | error e => simp [step, FrameProcessor.step, flush, Except.map] at stepped
      | ok r =>
          obtain ⟨fp', result, frame⟩ := r
          obtain ⟨same, failed⟩ := flush_frame flush
          simp only [step, FrameProcessor.step, flush, Except.map] at stepped
          obtain ⟨rfl, -⟩ := Prod.mk.inj (Except.ok.inj stepped)
          intro flushed
          rw [same.expected, same.flushed]
          cases result with
          | success => simpa using failed
          | fecSuccess => simpa using failed
          | fecFailed => exact h flushed
          | failed => exact h flushed

theorem putUnit_harmless {fp : FrameProcessor} {packet : TakionAVPacket} (going : fp.flushed = false) :
    (∃ fp' err, fp.putUnit packet = .ok (fp', err) ∧ fp'.frameBuf = fp.frameBuf) ↔ Harmless fp packet := by
  by_cases checked : SizeChecked fp packet ∧ packet.unitIndex ≤ fp.unitSlotsSize
  · rw [putUnit_unchecked checked.1 checked.2]
    have harmless : Harmless fp packet ↔ ∃ size, slotSize fp.unitSlots packet.unitIndex = .ok size ∧
        (size ≠ 0 ∨ ∃ buf, fp.frameBuf = some buf ∧
          read buf (packet.unitIndex * fp.bufStridePerUnit) packet.dataSize = some packet.data) :=
      ⟨fun h => h checked.2 checked.1, fun h _ _ => h⟩
    rw [harmless]
    cases slotSize fp.unitSlots packet.unitIndex with
    | error e => simp [bind, Except.bind]
    | ok size =>
        rw [ok_bind]
        by_cases taken : size = 0
        · subst taken
          rw [if_neg (by decide)]
          simp only [setSlot, going, Bool.false_eq_true, if_false, copyToFrame]
          cases fp.frameBuf with
          | none => simp [deref, bind, Except.bind]
          | some buf =>
              have same : read buf (packet.unitIndex * fp.bufStridePerUnit) packet.dataSize = some packet.data ↔
                  write buf (packet.unitIndex * fp.bufStridePerUnit) packet.data = some buf :=
                write_eq_self_iff.symm
              rw [deref_some, ok_bind]
              cases written : write buf (packet.unitIndex * fp.bufStridePerUnit) packet.data with
              | none =>
                  rw [written] at same
                  simp [same, inBounds, bind, Except.bind]
              | some buf' =>
                  rw [written] at same
                  simp [same, inBounds_some, ok_bind, countUnit_frameBuf, pure, Except.pure]
        · rw [if_pos taken]
          exact ⟨fun _ => ⟨size, rfl, .inl taken⟩, fun _ => ⟨fp, _, rfl, rfl⟩⟩
  · rw [putUnit_refused (by rwa [← Nat.not_le, ← not_and_or])]
    exact ⟨fun _ inside size => absurd ⟨size, inside⟩ checked, fun _ => ⟨fp, _, rfl, rfl⟩⟩

theorem final_iff_admits {jerasure : Jerasure} {ndebug : Bool} {s : FrameProcessor × Bool} (h : Going s) (op : Op) :
    Final jerasure ndebug s op ↔ Admits s op := by
  obtain ⟨fp, done⟩ := s
  refine forall_congr' fun flushed => ?_
  obtain ⟨expected, going⟩ := h flushed
  cases op with
  | allocFrame packet outcome => exact Iff.rfl
  | putUnit packet =>
      refine Iff.trans ?_ (putUnit_harmless going)
      cases put : fp.putUnit packet with
      | error e => simp [FrameProcessor.step, put, Except.map]
      | ok r => simp [FrameProcessor.step, put, Except.map, Prod.ext_iff]
  | flush outcome =>
      refine iff_false_intro ?_
      rintro ⟨fp', frame, stepped⟩
      cases flush : fp.flush jerasure ndebug outcome with
      | error e => simp [FrameProcessor.step, flush, Except.map] at stepped
      | ok r =>
          obtain ⟨fp'', result, bytes⟩ := r
          obtain ⟨-, failed⟩ := flush_frame flush
          simp only [FrameProcessor.step, flush, Except.map, Except.ok.injEq, Prod.mk.injEq,
            Out.flushed.injEq] at stepped
          cases failed.mp stepped.2.1 with
          | inl none => exact expected none
          | inr refused => exact absurd refused (by rw [going]; decide)

/-- Flushed frames stay as they are in a run without a second flush and without a late unit that is stored
over other bytes, and only in such a run. -/
theorem final_iff (jerasure : Jerasure) (ndebug : Bool) (ops : List Op) :
    Along (step jerasure ndebug) (Final jerasure ndebug) (init, false) ops ↔
      Along (step jerasure ndebug) Admits (init, false) ops :=
  along_iff Going (fun _ _ _ _ going _ stepped => going_step going stepped)
    (fun _ op going _ => final_iff_admits going op) (by intro flushed; cases flushed) (along_true _ ops)

set_option maxRecDepth 8000 in
/-- One source unit, and the frame is flushed twice. -/
theorem not_final_twice : ∃ first second, first ≠ second ∧
    (run (step noMatrix false) (init, false)
      [.allocFrame (.ofVideoUnit 0 2 1 [0, 0, 5, 6, 7] (by decide)) ⟨true, true⟩,
        .putUnit (.ofVideoUnit 0 2 1 [0, 0, 5, 6, 7] (by decide)), .flush ⟨true, true, true, true⟩,
        .flush ⟨true, true, true, true⟩]).map (·.2) =
      .ok [.allocated .success, .put .success, .flushed .success first, .flushed .success second] ∧
    ¬ Along (step noMatrix false) (Final noMatrix false) (init, false)
      [.allocFrame (.ofVideoUnit 0 2 1 [0, 0, 5, 6, 7] (by decide)) ⟨true, true⟩,
        .putUnit (.ofVideoUnit 0 2 1 [0, 0, 5, 6, 7] (by decide)), .flush ⟨true, true, true, true⟩,
        .flush ⟨true, true, true, true⟩] := by
  refine ⟨some [5, 6, 7], some [7, 6, 7], by decide, rfl, fun holds => ?_⟩
  have once := ((holds.2 _ _ rfl).2 _ _ rfl).2 _ _ rfl
  obtain ⟨fp, frame, stepped⟩ := once.1 rfl
  cases stepped

end Flushed
end FrameProcessor
end Chiaki
