import Chiaki.Frame.Reachable
import Chiaki.Video.Receiver

/-!
# What each step of the receiver can do
-/

namespace Chiaki
open Memory

/-! ## Rewriting keeps the length -/

theorem writeFlag_length {nal : Vlc} {set : Bool} {data data' : Bytes} (h : writeFlag nal set data = .ok data') :
    data'.length = data.length := by
  obtain ⟨dwords, -, h⟩ := bind_eq_ok h
  obtain ⟨mask, -, h⟩ := bind_eq_ok h
  exact length_of_write (FrameProcessor.inBounds_eq_ok h)

theorem rewriteFlags_length {ndebug : Bool} {referenceFrame left i : Nat} {rbsp : Rbsp} {data : Bytes}
    {r : Bytes × Bool} (h : rewriteFlags ndebug referenceFrame left i rbsp data = .ok r) :
    r.1.length = data.length := by
  induction left generalizing i rbsp data with
  | zero =>
      obtain rfl := Except.ok.inj h
      rfl
  | succ left ih =>
      obtain ⟨⟨rbsp1, code⟩, -, h⟩ := bind_eq_ok h
      obtain ⟨data', written, h⟩ := bind_eq_ok h
      have length := writeFlag_length written
      dsimp only at h
      split at h
      · obtain rfl := Except.ok.inj h
        exact length
      · obtain ⟨⟨rbsp2, flag⟩, -, h⟩ := bind_eq_ok h
        rw [ih h, length]

theorem sliceSetReferenceFrame_length {ndebug : Bool} {address : Nat} {bitstream : Bitstream} {data : Bytes}
    {referenceFrame : Nat} {r : Bytes × Bool}
    (h : bitstream.sliceSetReferenceFrame ndebug address data referenceFrame = .ok r) :
    r.1.length = data.length := by
  have unchanged {b : Bool} (h : (pure (data, b) : Checked (Bytes × Bool)) = .ok r) : r.1.length = data.length := by
    obtain rfl := Except.ok.inj h
    rfl
  unfold Bitstream.sliceSetReferenceFrame at h
  split at h
  · exact unchanged h
  obtain ⟨vlc, -, h⟩ := bind_eq_ok h
  obtain ⟨⟨vlc1, found⟩, -, h⟩ := bind_eq_ok h
  dsimp only at h
  split at h
  · exact unchanged h
  obtain ⟨⟨vlc2, nalUnitType⟩, -, h⟩ := bind_eq_ok h
  dsimp only at h
  split at h
  · exact unchanged h
  obtain ⟨rbsp, -, h⟩ := bind_eq_ok h
  obtain ⟨rbsp1, -, h⟩ := bind_eq_ok h
  obtain ⟨⟨rbsp2, sliceType⟩, -, h⟩ := bind_eq_ok h
  dsimp only at h
  split at h
  · exact unchanged h
  obtain ⟨⟨rbsp3, numNegativePics⟩, -, h⟩ := bind_eq_ok h
  dsimp only at h
  split at h
  · exact unchanged h
  split at h
  · exact unchanged h
  exact rewriteFlags_length h

/-! ## Flushing -/

theorem FrameProcessor.flush_frame {jerasure : Jerasure} {ndebug : Bool} {outcome : FlushOutcome}
    {fp fp' : FrameProcessor} {result : FlushResult} {frame : Option Bytes}
    (h : fp.flush jerasure ndebug outcome = .ok (fp', result, frame)) :
    frame = none ∨ ∃ size, frame = fp'.frameBuf.map (·.take size) := by
  unfold flush at h
  split at h
  · obtain ⟨-, h⟩ := Prod.mk.inj (Except.ok.inj h)
    exact .inl (Prod.mk.inj h).2.symm
  obtain ⟨⟨fp1, result1⟩, -, h⟩ := bind_eq_ok h
  obtain ⟨⟨buf, size⟩, -, h⟩ := bind_eq_ok h
  obtain ⟨same, h⟩ := Prod.mk.inj (Except.ok.inj h)
  rw [← same]
  exact .inr ⟨size, (Prod.mk.inj h).2.symm⟩

namespace VideoReceiver
variable {jerasure : Jerasure} {ndebug : Bool}

theorem checkReference_length {receiver : VideoReceiver} {stack : BitstreamSlice} {frame : Bytes}
    {r : Bytes × Bool × Bool} (h : receiver.checkReference ndebug stack frame = .ok r) :
    r.1.length = frame.length := by
  have unchanged {b b' : Bool} (h : (pure (frame, b, b') : Checked (Bytes × Bool × Bool)) = .ok r) :
      r.1.length = frame.length := by
    obtain rfl := Except.ok.inj h
    rfl
  obtain ⟨⟨parsed, slice⟩, -, h⟩ := bind_eq_ok h
  dsimp only at h
  split at h
  · unfold recoverReference at h
    split at h
    · exact unchanged h
    split at h
    · exact unchanged h
    obtain ⟨⟨frame', recovered⟩, done, h⟩ := bind_eq_ok h
    obtain rfl := Except.ok.inj h
    exact sliceSetReferenceFrame_length done
  · exact unchanged h

/-- The ways through `chiaki_video_receiver_flush_frame`: nothing assembled, the correction failed, or an
assembled frame. -/
theorem flushFrame_inv {answers : FlushAnswers} {receiver receiver' : VideoReceiver} {events : List VideoEvent}
    (h : receiver.flushFrame jerasure ndebug answers = .ok (receiver', events)) :
    ∃ fp result frame, receiver.frameProcessor.flush jerasure ndebug answers.memory = .ok (fp, result, frame) ∧
      ((result = .failed ∧ receiver' = { receiver with frameProcessor := fp } ∧ events = []) ∨
      (result = .fecFailed ∧ ∃ lost,
        addInt32 receiver.framesLost (receiver.frameIndexCur - receiver.nextFrameExpected + 1) = .ok lost ∧
          receiver' = { receiver with
            frameProcessor := fp, framesLost := lost, frameIndexPrev := receiver.frameIndexCur } ∧
          events = [.corruptFrame receiver.nextFrameExpected (seqNum16 receiver.frameIndexCur)]) ∨
      (result = .success ∨ result = .fecSuccess) ∧ ∃ frame' succ recovered,
        { receiver with frameProcessor := fp }.checkReference ndebug answers.stack (frame.getD []) =
          .ok (frame', succ, recovered) ∧
        ({ receiver with frameProcessor := fp }.overwriteFrame frame').finishFrame frame' succ recovered
          answers.accepted = .ok (receiver', events)) := by
  obtain ⟨⟨fp, result, frame⟩, flushed, h⟩ := bind_eq_ok h
  refine ⟨fp, result, frame, flushed, ?_⟩
  have checked (h : ({ receiver with frameProcessor := fp }.checkReference ndebug answers.stack (frame.getD [])
      >>= fun r => ({ receiver with frameProcessor := fp }.overwriteFrame r.1).finishFrame r.1 r.2.1 r.2.2
        answers.accepted) = .ok (receiver', events)) : ∃ frame' succ recovered,
      { receiver with frameProcessor := fp }.checkReference ndebug answers.stack (frame.getD []) =
        .ok (frame', succ, recovered) ∧
      ({ receiver with frameProcessor := fp }.overwriteFrame frame').finishFrame frame' succ recovered
        answers.accepted = .ok (receiver', events) := by
    obtain ⟨⟨frame', succ, recovered⟩, looked, h⟩ := bind_eq_ok h
    exact ⟨frame', succ, recovered, looked, h⟩
  cases result with
  | failed =>
      obtain ⟨rfl, rfl⟩ := Prod.mk.inj (Except.ok.inj h)
      exact .inl ⟨rfl, rfl, rfl⟩
  | fecFailed =>
      obtain ⟨lost, sum, h⟩ := bind_eq_ok h
      obtain ⟨rfl, rfl⟩ := Prod.mk.inj (Except.ok.inj h)
      exact .inr (.inl ⟨rfl, lost, sum, rfl, rfl⟩)
  | success => exact .inr (.inr ⟨.inl rfl, checked h⟩)
  | fecSuccess => exact .inr (.inr ⟨.inr rfl, checked h⟩)

/-- An assembled frame is dropped, taken without a callback, or given to it. -/
theorem finishFrame_inv {receiver receiver' : VideoReceiver} {frame : Bytes} {succ recovered accepted : Bool}
    {events : List VideoEvent}
    (h : receiver.finishFrame frame succ recovered accepted = .ok (receiver', events)) :
    (succ = false ∧ events = [] ∧ ∃ lost, addInt32 receiver.framesLost 1 = .ok lost ∧
      receiver' = { receiver with framesLost := lost, frameIndexPrev := receiver.frameIndexCur }) ∨
    (succ = true ∧ receiver.videoSampleCb = false ∧ events = [] ∧ receiver' = { receiver with
      frameIndexPrev := receiver.frameIndexCur, frameIndexPrevComplete := receiver.frameIndexCur }) ∨
    (succ = true ∧ receiver.videoSampleCb = true ∧ events = [(receiver.giveSample frame recovered accepted).2] ∧
      receiver' = (receiver.giveSample frame recovered accepted).1) := by
  cases succ with
  | false =>
      obtain ⟨lost, sum, h⟩ := bind_eq_ok h
      obtain ⟨rfl, rfl⟩ := Prod.mk.inj (Except.ok.inj h)
      exact .inl ⟨rfl, rfl, lost, sum, rfl⟩
  | true =>
      unfold finishFrame at h
      rw [if_neg (by decide)] at h
      split at h
      · obtain ⟨rfl, rfl⟩ := Prod.mk.inj (Except.ok.inj h)
        exact .inr (.inr ⟨rfl, ‹_›, rfl, rfl⟩)
      · obtain ⟨rfl, rfl⟩ := Prod.mk.inj (Except.ok.inj h)
        exact .inr (.inl ⟨rfl, Bool.eq_false_iff.mpr ‹_›, rfl, rfl⟩)

section Given
variable (receiver : VideoReceiver) (frame : Bytes) (recovered accepted : Bool)

@[simp] theorem giveSample_cur :
    (receiver.giveSample frame recovered accepted).1.frameIndexCur = receiver.frameIndexCur := by
  cases accepted <;> rfl

@[simp] theorem giveSample_prev :
    (receiver.giveSample frame recovered accepted).1.frameIndexPrev = receiver.frameIndexCur := by
  cases accepted <;> rfl

@[simp] theorem giveSample_frameProcessor :
    (receiver.giveSample frame recovered accepted).1.frameProcessor = receiver.frameProcessor := by
  cases accepted <;> rfl

end Given

theorem overwriteFrame_same (receiver : VideoReceiver) {frame : Bytes}
    (fits : ∀ buf, receiver.frameProcessor.frameBuf = some buf → frame.length ≤ buf.length) :
    receiver.frameProcessor.SameBlocks (receiver.overwriteFrame frame).frameProcessor := by
  refine ⟨rfl, rfl, rfl, ?_⟩
  cases here : receiver.frameProcessor.frameBuf with
  | none => simp [overwriteFrame, here]
  | some buf =>
      have room := fits buf here
      simp only [overwriteFrame, here, Option.map_some, List.length_append, List.length_drop]
      congr 1
      omega

/-- A flush stays with the current frame. It gives the callback one frame or none. -/
structure Flushed (receiver receiver' : VideoReceiver) (events : List VideoEvent) : Prop where
  cur : receiver'.frameIndexCur = receiver.frameIndexCur
  blocks : receiver.frameProcessor.SameBlocks receiver'.frameProcessor
  prev : receiver'.frameIndexPrev = receiver.frameIndexPrev ∨ receiver'.frameIndexPrev = receiver.frameIndexCur
  events : events = [] ∨ (∃ start last, events = [.corruptFrame start last]) ∨
    ∃ sample, events = [.sample sample] ∧ sample.index = seqNum16 receiver.frameIndexCur ∧
      receiver'.frameIndexPrev = receiver.frameIndexCur

theorem flushFrame_flushed {answers : FlushAnswers} {receiver receiver' : VideoReceiver}
    {events : List VideoEvent} (h : receiver.flushFrame jerasure ndebug answers = .ok (receiver', events)) :
    Flushed receiver receiver' events := by
  obtain ⟨fp, result, frame, flushed, ⟨-, nothing⟩ | ⟨-, lost, -, failed⟩ | ⟨-, assembled⟩⟩ := flushFrame_inv h
  · obtain ⟨rfl, rfl⟩ := nothing
    exact ⟨rfl, FrameProcessor.flush_same flushed, .inl rfl, .inl rfl⟩
  · obtain ⟨rfl, rfl⟩ := failed
    exact ⟨rfl, FrameProcessor.flush_same flushed, .inr rfl, .inr (.inl ⟨_, _, rfl⟩)⟩
  · obtain ⟨frame', succ, recovered, looked, finished⟩ := assembled
    have fits : ∀ buf, fp.frameBuf = some buf → frame'.length ≤ buf.length := by
      intro buf here
      have length := checkReference_length looked
      dsimp only at length
      rw [length]
      rcases FrameProcessor.flush_frame flushed with none | ⟨size, front⟩
      · simp [none]
      · rw [front, here]
        simp
    have blocks : receiver.frameProcessor.SameBlocks
        ({ receiver with frameProcessor := fp }.overwriteFrame frame').frameProcessor :=
      (FrameProcessor.flush_same flushed).trans (overwriteFrame_same { receiver with frameProcessor := fp } fits)
    rcases finishFrame_inv finished with ⟨-, rfl, lost, -, rfl⟩ | ⟨-, -, rfl, rfl⟩ | ⟨-, -, rfl, rfl⟩
    · exact ⟨rfl, blocks, .inr rfl, .inl rfl⟩
    · exact ⟨rfl, blocks, .inr rfl, .inl rfl⟩
    · refine ⟨giveSample_cur .., ?_, .inr (giveSample_prev ..), .inr (.inr ⟨_, rfl, rfl, giveSample_prev ..⟩)⟩
      rw [giveSample_frameProcessor]
      exact blocks

/-! ## Packets -/

theorem checkAdaptiveStreamIndex_inv {receiver receiver' : VideoReceiver} {packet : TakionAVPacket}
    {events : List VideoEvent} {found : Bool}
    (h : receiver.checkAdaptiveStreamIndex ndebug packet = .ok (receiver', events, found)) :
    (∃ profile bitstream, receiver' = { receiver with profileCur := profile, bitstream := bitstream }) ∧
      (events = [] ∨ ∃ header, events = [.header header]) ∧ (found = true → receiver.hasProfile packet) := by
  unfold checkAdaptiveStreamIndex at h
  split at h
  · rename_i current
    obtain ⟨rfl, rest⟩ := Prod.mk.inj (Except.ok.inj h)
    exact ⟨⟨_, _, rfl⟩, .inl (Prod.mk.inj rest).1.symm, fun _ => .inl current⟩
  split at h
  · obtain ⟨rfl, rest⟩ := Prod.mk.inj (Except.ok.inj h)
    obtain ⟨rfl, rfl⟩ := Prod.mk.inj rest
    exact ⟨⟨_, _, rfl⟩, .inl rfl, fun found => by cases found⟩
  · rename_i header there
    obtain ⟨⟨bitstream, parsed⟩, -, h⟩ := bind_eq_ok h
    obtain ⟨rfl, rest⟩ := Prod.mk.inj (Except.ok.inj h)
    refine ⟨⟨_, _, rfl⟩, ?_, fun _ => .inr (List.getElem?_eq_some_iff.mp there).1⟩
    rw [← (Prod.mk.inj rest).1]
    split
    · exact .inr ⟨_, rfl⟩
    · exact .inl rfl

/-- A packet is turned away, or it goes through the profile, the frame, its unit and the flush. -/
theorem avPacket_inv {answers : PacketAnswers} {receiver receiver' : VideoReceiver} {packet : TakionAVPacket}
    {events : List VideoEvent} (h : receiver.avPacket jerasure ndebug answers packet = .ok (receiver', events)) :
    (receiver' = receiver ∧ events = []) ∨
    receiver.checkAdaptiveStreamIndex ndebug packet = .ok (receiver', events, false) ∨
    ∃ profiled header framed started stored put flushed,
      receiver.isOld (packet.frameIndex % 2 ^ 16) = false ∧
      receiver.checkAdaptiveStreamIndex ndebug packet = .ok (profiled, header, true) ∧
      profiled.nextFrame jerasure ndebug answers packet (packet.frameIndex % 2 ^ 16) = .ok (framed, started) ∧
      framed.putUnit packet = .ok (stored, put) ∧
      stored.flushThis jerasure ndebug answers.this packet = .ok (receiver', flushed) ∧
      events = header ++ started ++ put ++ flushed := by
  unfold avPacket at h
  dsimp only at h
  split at h
  · obtain ⟨rfl, rfl⟩ := Prod.mk.inj (Except.ok.inj h)
    exact .inl ⟨rfl, rfl⟩
  rename_i fresh
  obtain ⟨⟨profiled, header, found⟩, checked, h⟩ := bind_eq_ok h
  cases found with
  | false =>
      obtain ⟨rfl, rfl⟩ := Prod.mk.inj (Except.ok.inj h)
      exact .inr (.inl checked)
  | true =>
      obtain ⟨⟨framed, started⟩, next, h⟩ := bind_eq_ok h
      obtain ⟨⟨stored, put⟩, putUnit, h⟩ := bind_eq_ok h
      obtain ⟨⟨done, flushed⟩, flush, h⟩ := bind_eq_ok h
      obtain ⟨rfl, rfl⟩ := Prod.mk.inj (Except.ok.inj h)
      exact .inr (.inr ⟨profiled, header, framed, started, stored, put, flushed, by simpa using fresh, checked,
        next, putUnit, flush, rfl⟩)

end VideoReceiver
end Chiaki
