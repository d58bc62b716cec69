import Chiaki.Video.References
import Chiaki.Video.Reordering

/-!
# The count of lost frames

`frames_lost` is what the callback is told. A frame that cannot be corrected adds its distance from the last
complete frame, taken as a difference of `int32_t`, also when the frames in between have been counted before.
-/

namespace Chiaki
open Machine

namespace VideoReceiver

/-! ## What is to be shown -/

/-- The frame that was last accepted as complete. -/
def nextComplete (complete : Nat) : VideoEvent → Nat
  | .sample sample => if sample.accepted then sample.index else complete
  | _ => complete

/-- No more frames are lost than there are between the last complete one and this one. -/
def LostBetween (complete : Nat) : VideoEvent → Prop
  | .sample sample => 0 ≤ sample.framesLost ∧
      sample.framesLost ≤ seqNum16 ((sample.index : Int) - (complete : Int) - 1)
  | _ => True

instance (complete : Nat) : (event : VideoEvent) → Decidable (LostBetween complete event)
  | .sample _ => inferInstanceAs (Decidable (_ ∧ _))
  | .header _ | .corruptFrame _ _ | .packetStats _ _ | .newFrame _ | .emptied | .stored _ => .isTrue trivial

/-! ## When it holds -/

/-- How far an index is ahead of the last complete frame. -/
def gap (receiver : VideoReceiver) (frameIndex : Int) : Nat :=
  seqNum16 (frameIndex - receiver.frameIndexPrevComplete)

section Counted
variable (jerasure : Jerasure) (ndebug : Bool)

/-- A frame that cannot be corrected is the first to be counted since the callback was called, and the difference of
the indices is how far it is ahead; a frame without its reference is not the one at which counting began. -/
def countedFlush (answers : FlushAnswers) (receiver : VideoReceiver) : Bool :=
  match receiver.frameProcessor.flush jerasure ndebug answers.memory with
  | .ok (_, .fecFailed, _) =>
      decide (receiver.framesLost = 0 ∧
        receiver.frameIndexCur - receiver.nextFrameExpected + 1 = receiver.gap receiver.frameIndexCur)
  | .ok (fp, .success, frame) | .ok (fp, .fecSuccess, frame) =>
      match { receiver with frameProcessor := fp }.checkReference ndebug answers.stack (frame.getD []) with
      | .ok (_, false, _) => decide (receiver.frameIndexCur ≠ receiver.frameIndexPrevComplete)
      | _ => true
  | _ => true

/-- While losses are counted, the frame that is started is further ahead than the frame before. -/
def countedStart (answers : PacketAnswers) (receiver : VideoReceiver) (packet : TakionAVPacket) : Bool :=
  match receiver.checkAdaptiveStreamIndex ndebug packet with
  | .ok (profiled, _, true) =>
      !profiled.isNext (packet.frameIndex % 2 ^ 16) ||
        match profiled.flushLast jerasure ndebug answers.last with
        | .ok (between, _) => decide (between.framesLost = 0 ∨
            between.gap between.frameIndexCur < between.gap (packet.frameIndex % 2 ^ 16 : Nat))
        | .error _ => true
  | _ => true

/-- Losses are counted once. -/
def Counted (receiver : VideoReceiver) (op : Op) : Prop :=
  (∀ call ∈ receiver.calls jerasure ndebug op, countedFlush jerasure ndebug call.1 call.2 = true) ∧
    match op with
    | .streamInfo _ => True
    | .avPacket answers packet => countedStart jerasure ndebug answers receiver packet = true

instance (receiver : VideoReceiver) : (op : Op) → Decidable (Counted jerasure ndebug receiver op)
  | .streamInfo _ => inferInstanceAs (Decidable (_ ∧ True))
  | .avPacket _ _ => inferInstanceAs (Decidable (_ ∧ _ = true))

end Counted

/-! ## Counting -/

/-- What is counted stays below the distance of the last complete frame, and below it by one while the current
frame is not flushed. -/
structure Counting (receiver : VideoReceiver) (complete : Nat) : Prop where
  complete_eq : receiver.frameIndexPrevComplete = complete
  complete_lt : complete < 2 ^ 16
  cur_lt : receiver.frameIndexCur < 2 ^ 16
  nonneg : 0 ≤ receiver.framesLost
  first : receiver.frameIndexCur < 0 → receiver.framesLost = 0
  flushed : 0 ≤ receiver.frameIndexCur → receiver.framesLost ≤ receiver.gap receiver.frameIndexCur
  due : 0 ≤ receiver.frameIndexCur → receiver.frameIndexPrev ≠ receiver.frameIndexCur →
    receiver.framesLost < receiver.gap receiver.frameIndexCur ∨
      receiver.framesLost = 0 ∧ receiver.frameIndexCur = receiver.frameIndexPrevComplete

section Flush
variable {jerasure : Jerasure} {ndebug : Bool}

theorem addInt32_eq {a b c : Int} (h : addInt32 a b = .ok c) : c = a + b := by
  unfold addInt32 at h
  split at h
  · exact (Except.ok.inj h).symm
  · cases h

theorem Counting.count {receiver : VideoReceiver} {complete : Nat} (h : Counting receiver complete)
    (going : 0 ≤ receiver.frameIndexCur) {lost : Int} (nonneg : 0 ≤ lost)
    (counted : lost ≤ receiver.gap receiver.frameIndexCur) (fp : FrameProcessor) :
    Counting { receiver with frameProcessor := fp, framesLost := lost, frameIndexPrev := receiver.frameIndexCur }
      complete :=
  ⟨h.complete_eq, h.complete_lt, h.cur_lt, nonneg, fun none => absurd going (not_le.mpr none), fun _ => counted,
    fun _ again => absurd rfl again⟩

theorem Counting.dropped {receiver : VideoReceiver} {complete : Nat} (h : Counting receiver complete)
    (going : 0 ≤ receiver.frameIndexCur) (due : receiver.frameIndexPrev ≠ receiver.frameIndexCur)
    (other : receiver.frameIndexCur ≠ receiver.frameIndexPrevComplete) :
    receiver.framesLost + 1 ≤ receiver.gap receiver.frameIndexCur := by
  rcases h.due going due with below | ⟨-, same⟩
  · exact below
  · exact absurd same other

theorem Counting.lostBetween {receiver : VideoReceiver} {complete : Nat} (h : Counting receiver complete)
    (going : 0 ≤ receiver.frameIndexCur) (due : receiver.frameIndexPrev ≠ receiver.frameIndexCur)
    {frame : Bytes} {recovered accepted : Bool} :
    LostBetween complete (receiver.giveSample frame recovered accepted).2 := by
  have complete_lt := h.complete_lt
  have cur_lt := h.cur_lt
  have below := h.due going due
  refine ⟨h.nonneg, ?_⟩
  simp only [gap, seqNum16, h.complete_eq] at below ⊢
  omega

theorem Counting.given {receiver : VideoReceiver} {complete : Nat} (h : Counting receiver complete)
    (going : 0 ≤ receiver.frameIndexCur) {frame : Bytes} {recovered accepted : Bool} :
    Counting (receiver.giveSample frame recovered accepted).1
      (nextComplete complete (receiver.giveSample frame recovered accepted).2) := by
  have cur_lt := h.cur_lt
  have index : (seqNum16 receiver.frameIndexCur : Int) = receiver.frameIndexCur := by
    simp only [seqNum16]
    omega
  cases accepted with
  | false => exact h.count going le_rfl (Int.natCast_nonneg _) _
  | true =>
      refine ⟨index.symm, by simp [nextComplete, giveSample]; omega, cur_lt, le_rfl,
        fun none => absurd going (not_le.mpr none), fun _ => Int.natCast_nonneg _, fun _ again => absurd rfl again⟩

theorem Counting.flush {receiver receiver' : VideoReceiver} {complete : Nat} {answers : FlushAnswers}
    {events : List VideoEvent} (h : Counting receiver complete) (going : 0 ≤ receiver.frameIndexCur)
    (due : receiver.frameIndexPrev ≠ receiver.frameIndexCur)
    (counted : countedFlush jerasure ndebug answers receiver = true) (callback : receiver.videoSampleCb = true)
    (flush : receiver.flushFrame jerasure ndebug answers = .ok (receiver', events)) :
    Follows nextComplete LostBetween complete events ∧ Counting receiver' (events.foldl nextComplete complete) := by
  obtain ⟨fp, result, frame, flushed, ⟨rfl, rfl, rfl⟩ | ⟨rfl, lost, sum, rfl, rfl⟩ |
    ⟨good, frame', succ, recovered, looked, finished⟩⟩ := flushFrame_inv flush
  · exact ⟨trivial, h.complete_eq, h.complete_lt, h.cur_lt, h.nonneg, h.first, h.flushed, h.due⟩
  · obtain rfl := addInt32_eq sum
    rw [countedFlush, flushed] at counted
    obtain ⟨zero, distance⟩ := of_decide_eq_true counted
    rw [zero, Int.zero_add, distance]
    exact ⟨⟨trivial, trivial⟩, h.count going (Int.natCast_nonneg _) le_rfl fp⟩
  · have checked : succ = false → receiver.frameIndexCur ≠ receiver.frameIndexPrevComplete := by
      rintro rfl
      rcases good with rfl | rfl <;>
      · simp only [countedFlush, flushed, looked] at counted
        exact of_decide_eq_true counted
    rcases finishFrame_inv finished with ⟨rfl, rfl, lost, sum, rfl⟩ | ⟨-, none, -⟩ | ⟨-, -, rfl, rfl⟩
    · obtain rfl := addInt32_eq sum
      exact ⟨trivial, h.count going (Int.add_nonneg h.nonneg (by decide)) (h.dropped going due (checked rfl)) _⟩
    · exact absurd (none.symm.trans callback) Bool.false_ne_true
    · have overwritten : Counting ({ receiver with frameProcessor := fp }.overwriteFrame frame') complete :=
        ⟨h.complete_eq, h.complete_lt, h.cur_lt, h.nonneg, h.first, h.flushed, h.due⟩
      exact ⟨⟨overwritten.lostBetween going due, trivial⟩, overwritten.given going⟩

/-! ## Packets -/

theorem Counting.congr {receiver : VideoReceiver} {complete : Nat} (h : Counting receiver complete) (profile : Int)
    (bitstream : Bitstream) (fp : FrameProcessor) :
    Counting { receiver with profileCur := profile, bitstream := bitstream, frameProcessor := fp } complete :=
  ⟨h.complete_eq, h.complete_lt, h.cur_lt, h.nonneg, h.first, h.flushed, h.due⟩

theorem Counting.start {receiver : VideoReceiver} {complete : Nat} (h : Counting receiver complete) (index : Nat)
    (ahead : receiver.framesLost = 0 ∨
      receiver.gap receiver.frameIndexCur < receiver.gap (index % 2 ^ 16 : Nat)) (fp : FrameProcessor) :
    Counting { receiver with frameIndexCur := (index % 2 ^ 16 : Nat), frameProcessor := fp } complete := by
  have complete_lt := h.complete_lt
  have nonneg := h.nonneg
  have below : receiver.framesLost = 0 ∨ receiver.framesLost < receiver.gap (index % 2 ^ 16 : Nat) := by
    rcases ahead with zero | further
    · exact .inl zero
    · by_cases going : 0 ≤ receiver.frameIndexCur
      · exact .inr ((h.flushed going).trans_lt (by exact_mod_cast further))
      · exact .inl (h.first (not_le.mp going))
  refine ⟨h.complete_eq, complete_lt, ?_, nonneg, ?_, fun _ => ?_, fun _ _ => ?_⟩
  all_goals simp only [gap, seqNum16, h.complete_eq] at below ⊢
  all_goals omega

theorem Flushes.mem_calls {receiver flushing : VideoReceiver} {answers : PacketAnswers} {answers' : FlushAnswers}
    {packet : TakionAVPacket} (h : Flushes jerasure ndebug receiver answers packet flushing answers') :
    (answers', flushing) ∈ receiver.calls jerasure ndebug (.avPacket answers packet) := by
  cases h with
  | last old checked isNext due =>
      simp only [calls, old, Bool.false_eq_true, if_false, checked, isNext, if_true]
      exact List.mem_append_left _ (by simp [callsLast, due])
  | this old checked next put due =>
      rw [calls_avPacket old checked next put]
      exact List.mem_append_right _ (by simp [callsThis, due])

theorem no_sample_complete (complete : Nat) {event : VideoEvent} (other : ∀ sample, event ≠ .sample sample) :
    LostBetween complete event ∧ nextComplete complete event = complete := by
  cases event with
  | sample sample => exact absurd rfl (other sample)
  | _ => exact ⟨trivial, rfl⟩

theorem flushFrame_uncalled {answers : FlushAnswers} {receiver receiver' : VideoReceiver} {events : List VideoEvent}
    (flush : receiver.flushFrame jerasure ndebug answers = .ok (receiver', events))
    (uncalled : receiver.videoSampleCb = false) :
    receiver'.videoSampleCb = false ∧ ∀ sample, .sample sample ∉ events := by
  obtain ⟨fp, result, frame, -, ⟨-, rfl, rfl⟩ | ⟨-, lost, -, rfl, rfl⟩ |
    ⟨-, frame', succ, recovered, -, finished⟩⟩ := flushFrame_inv flush
  · exact ⟨uncalled, by simp⟩
  · exact ⟨uncalled, by simp⟩
  · rcases finishFrame_inv finished with ⟨-, rfl, lost, -, rfl⟩ | ⟨-, -, rfl, rfl⟩ | ⟨-, called, -⟩
    · exact ⟨uncalled, by simp⟩
    · exact ⟨uncalled, by simp⟩
    · exact absurd (uncalled.symm.trans called) Bool.false_ne_true

/-- The count is right if there is a callback to be told. -/
def Told (receiver : VideoReceiver) (complete : Nat) : Prop :=
  receiver.videoSampleCb = true → Counting receiver complete

theorem Told.flush {answers : FlushAnswers} {receiver receiver' : VideoReceiver} {complete : Nat}
    {events : List VideoEvent} (h : Told receiver complete) (going : 0 ≤ receiver.frameIndexCur)
    (due : receiver.frameIndexPrev ≠ receiver.frameIndexCur)
    (counted : countedFlush jerasure ndebug answers receiver = true)
    (flush : receiver.flushFrame jerasure ndebug answers = .ok (receiver', events)) :
    Follows nextComplete LostBetween complete events ∧ Told receiver' (events.foldl nextComplete complete) := by
  cases callback : receiver.videoSampleCb with
  | true =>
      obtain ⟨follows, counting⟩ := (h callback).flush going due counted callback flush
      exact ⟨follows, fun _ => counting⟩
  | false =>
      obtain ⟨uncalled, none⟩ := flushFrame_uncalled flush callback
      exact ⟨(follows_no_sample (fun complete event => no_sample_complete complete) none complete).1,
        fun called => absurd (uncalled.symm.trans called) Bool.false_ne_true⟩

theorem Told.avPacket {answers : PacketAnswers} {receiver receiver' : VideoReceiver} {complete : Nat}
    {packet : TakionAVPacket} {events : List VideoEvent} (h : Told receiver complete)
    (counted : Counted jerasure ndebug receiver (.avPacket answers packet))
    (stepped : receiver.avPacket jerasure ndebug answers packet = .ok (receiver', events)) :
    Follows nextComplete LostBetween complete events ∧ Told receiver' (events.foldl nextComplete complete) := by
  refine avPacket_follows Told (fun complete event => no_sample_complete complete)
    (fun _ _ profile bitstream fp h called => (h called).congr profile bitstream fp) ?_ ?_ h stepped
  · intro flushing answers' complete flushed events h flushes going due flush
    exact h.flush going due (counted.1 _ flushes.mem_calls) flush
  · intro profiled header between events complete fp old checked isNext flush h called
    have ahead := counted.2
    simp only [countedStart, checked, isNext, flush, Bool.not_true, Bool.false_or, decide_eq_true_eq] at ahead
    exact (h called).start packet.frameIndex ahead fp

theorem Told.step {receiver receiver' : VideoReceiver} {complete : Nat} {op : Op} {events : List VideoEvent}
    (h : Told receiver complete) (counted : Counted jerasure ndebug receiver op)
    (stepped : receiver.step jerasure ndebug op = .ok (receiver', events)) :
    Follows nextComplete LostBetween complete events ∧ Told receiver' (events.foldl nextComplete complete) := by
  cases op with
  | avPacket answers packet => exact h.avPacket counted stepped
  | streamInfo profiles =>
      obtain ⟨profiles', rfl, rfl⟩ := streamInfo_inv stepped
      refine ⟨trivial, fun called => ?_⟩
      obtain ⟨complete_eq, complete_lt, cur_lt, nonneg, first, flushed, due⟩ := h called
      exact ⟨complete_eq, complete_lt, cur_lt, nonneg, first, flushed, due⟩

theorem counting_init (codec : Codec) (sps : Nat) (packetStats videoSampleCb : Bool) :
    Counting (init codec sps packetStats videoSampleCb) 0 where
  complete_eq := rfl
  complete_lt := by decide
  cur_lt := show (-1 : Int) < 2 ^ 16 by decide
  nonneg := le_rfl
  first := fun _ => rfl
  flushed := fun going => absurd going (show ¬ (0 : Int) ≤ -1 by decide)
  due := fun going => absurd going (show ¬ (0 : Int) ≤ -1 by decide)

/-! ## Whole runs -/

/-- When losses are counted once, no callback is told of more than there are between the last complete frame and its
own. -/
theorem framesLost_between {codec : Codec} {sps : Nat} {packetStats videoSampleCb : Bool} {ops : List Op}
    {receiver : VideoReceiver} {events : List (List VideoEvent)}
    (ran : run (step jerasure ndebug) (init codec sps packetStats videoSampleCb) ops = .ok (receiver, events))
    (counted : Along (step jerasure ndebug) (Counted jerasure ndebug)
      (init codec sps packetStats videoSampleCb) ops) :
    Follows nextComplete LostBetween 0 events.flatten :=
  (counted.follows Told (fun _ _ _ _ _ h counted stepped => h.step counted stepped)
    (fun _ => counting_init codec sps packetStats videoSampleCb) ran).1

/-- A frame of which only the last unit comes, which is not enough. -/
def failing (index : Nat) : Op := .avPacket willing (unitPacket index 2 3 1 [7, 7, 7] (by decide))

/-- A frame of one unit. -/
def whole (index : Nat) : Op := .avPacket willing (unitPacket index 0 2 1 [0, 0, 5] unit_short)

/-- What the callback is told. -/
def toldLost : VideoEvent → Option (Nat × Int)
  | .sample sample => some (sample.index, sample.framesLost)
  | _ => none

theorem framesLost_between_one_failing :
    ∃ r, run (step FrameProcessor.noMatrix false) (init .h264 0 true true) [.streamInfo [[]], failing 1, whole 2] = .ok r ∧
      r.2.flatten.filterMap toldLost = [(2, 1)] ∧ Follows nextComplete LostBetween 0 r.2.flatten := by
  obtain ⟨⟨receiver, events⟩, ran, told⟩ := exists_of_results
    (x := run (step FrameProcessor.noMatrix false) (init .h264 0 true true) [.streamInfo [[]], failing 1, whole 2])
    (P := fun r => r.2.flatten.filterMap toldLost = [(2, 1)]) (by decide +kernel)
  exact ⟨_, ran, told, framesLost_between ran (by decide +kernel)⟩

/-- Two frames that fail are counted as three, and a frame that fails after the indices have passed zero takes
65534 off. -/
theorem not_framesLost_between :
    (∃ r, run (step FrameProcessor.noMatrix false) (init .h264 0 true true)
        [.streamInfo [[]], failing 1, failing 2, whole 3] = .ok r ∧
      r.2.flatten.filterMap toldLost = [(3, 3)] ∧ ¬ Follows nextComplete LostBetween 0 r.2.flatten) ∧
    ∃ r, run (step FrameProcessor.noMatrix false) (init .h264 0 true true)
        [.streamInfo [[]], whole 1, whole 30000, whole 60000, whole 65534, failing 0, whole 1] = .ok r ∧
      r.2.flatten.filterMap toldLost = [(1, 0), (30000, 0), (60000, 0), (65534, 0), (1, -65534)] ∧
        ¬ Follows nextComplete LostBetween 0 r.2.flatten :=
  ⟨exists_of_results (by decide +kernel), exists_of_results (by decide +kernel)⟩

end Flush
end VideoReceiver
end Chiaki
