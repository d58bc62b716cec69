import Chiaki.Frame.Encode
import Chiaki.Frame.Final
import Chiaki.Lib.Masking
import Chiaki.Video.Delivery

/-!
# The order of the units of a frame

A frame is flushed as soon as there are enough units for it, and also when its last unit comes. The last
unit must therefore not come before there are enough.
-/

namespace Chiaki
open Memory Machine Serial

namespace VideoFrame

/-- A frame without FEC units, with units to put in the slots that are there anyway. -/
def withFec (frame : VideoFrame) (fec : List Bytes) (fec_size : ∀ unit ∈ fec, unit.length = frame.unitSize) :
    VideoFrame :=
  { frame with fec := fec, fec_size := fec_size }

theorem withFec_unit (frame : VideoFrame) {fec : List Bytes} (fec_size : ∀ unit ∈ fec, unit.length = frame.unitSize)
    (none : frame.fec = []) {i : Nat} (source : i < frame.source.length) :
    (frame.withFec fec fec_size).unit i = frame.unit i := by
  simp only [withFec, unit, none]
  rw [List.getD_append _ _ _ _ source, List.getD_append _ _ _ _ source]

end VideoFrame

namespace FrameProcessor
section Flush
variable {frame : VideoFrame} {got : Finset Nat} {fp : FrameProcessor} {slots : List Nat} {buf : Bytes}

theorem Holding.withFec (h : Holding frame got fp slots buf) {fec : List Bytes}
    (fec_size : ∀ unit ∈ fec, unit.length = frame.unitSize) (none : frame.fec = []) (one : fec.length = 1) :
    Holding (frame.withFec fec fec_size) got fp slots buf := by
  have source : ∀ i ∈ got, i < frame.source.length := by
    intro i member
    have bound := h.got_lt i member
    rwa [VideoFrame.unitCount, none] at bound
  have same : ∀ i ∈ got, (frame.withFec fec fec_size).unit i = frame.unit i :=
    fun i member => frame.withFec_unit fec_size none (source i member)
  refine ⟨h.toReady, h.flushed_eq, h.source_eq, ?_, h.size_eq, h.slots_eq, h.buf_eq, ?_, ?_, ?_,
    h.sourceReceived_eq, h.fecReceived_eq⟩
  · rw [h.fec_eq, VideoFrame.fecSlots, VideoFrame.fecSlots, none]
    simp [VideoFrame.withFec, one]
  · intro i
    rw [h.slot_eq]
    by_cases member : i ∈ got
    · rw [if_pos member, if_pos member, same i member]
    · rw [if_neg member, if_neg member]
  · intro i bound
    refine (h.read_eq i bound).trans ?_
    by_cases member : i ∈ got
    · rw [if_pos member, if_pos member, VideoFrame.padded, VideoFrame.padded, same i member]
      rfl
    · rw [if_neg member, if_neg member]
      rfl
  · intro i member
    exact (source i member).trans_le (Nat.le_add_right _ _)

variable (h : Holding frame got fp slots buf) (some_source : frame.source ≠ [])
variable (few : frame.source.length + frame.fecSlots ≤ unitSlotsMax)
variable {jerasure : Jerasure} {encoder : MatrixEncoder}
variable (encoded : frame.fec = [] ∨
  frame.Encoded (encoder.matrixEncode frame.source.length frame.fecSlots frame.unitSize))
variable (restores : Restores jerasure
  (encoder.matrixEncode frame.source.length frame.fecSlots frame.unitSize)
  frame.source.length frame.fecSlots frame.unitSize)
variable (ndebug : Bool)
include h some_source few encoded restores

/-- With as many units as the frame has source units the frame is complete, or can be restored. -/
theorem Holding.flush_settled (enough : frame.source.length ≤ got.card) :
    ∃ fp' result, fp.flush jerasure ndebug ⟨true, true, true, true⟩ = .ok (fp', result, some frame.payload) ∧
      (result = .success ∨ result = .fecSuccess) := by
  by_cases none : frame.fec = []
  · have inside : got ⊆ Finset.range frame.source.length := by
      intro i member
      have bound := h.got_lt i member
      rw [VideoFrame.unitCount, none] at bound
      exact Finset.mem_range.mpr bound
    have all : got = Finset.range frame.source.length :=
      Finset.eq_of_subset_of_card_le inside (by rwa [Finset.card_range])
    obtain ⟨fp', flushed⟩ := h.flush_complete some_source
      (fun i source => by rw [all]; exact Finset.mem_range.mpr source) jerasure ndebug ⟨true, true, true, true⟩
    exact ⟨fp', _, flushed, .inl rfl⟩
  · have slots : frame.fecSlots = frame.fec.length := by
      have positive := List.length_pos_iff.mpr none
      rw [VideoFrame.fecSlots, if_neg (by omega)]
    have encoded := encoded.resolve_left none
    rw [slots] at few encoded restores
    exact h.flush_enough some_source none few encoded restores ndebug enough

theorem Holding.flush_early (short : got.card < frame.source.length) :
    ∃ fp' bytes, fp.flush jerasure ndebug ⟨true, true, true, true⟩ = .ok (fp', .fecFailed, bytes) := by
  by_cases none : frame.fec = []
  · have slots : frame.fecSlots = 1 := by simp [VideoFrame.fecSlots, none]
    rw [slots] at few restores
    obtain ⟨one, sizes⟩ := encoder.encode_shape frame.source.length 1 frame.unitSize frame.paddedSource
      (List.length_map _) (by
        intro unit member
        obtain ⟨source, there, rfl⟩ := List.mem_map.mp member
        have size := (frame.source_size source there).2
        rw [List.rightpad, List.length_append, List.length_replicate]
        omega)
    have filled := h.withFec sizes none one
    have some_fec : (frame.withFec _ sizes).fec ≠ [] := List.length_pos_iff.mp (one.symm ▸ Nat.one_pos)
    have count : (frame.withFec _ sizes).fec.length = 1 := one
    refine filled.flush_short some_source some_fec ?_ rfl ?_ ndebug short
    · rw [VideoFrame.unitCount, count]
      exact few
    · rw [count]
      exact restores
  · have slots : frame.fecSlots = frame.fec.length := by
      have positive := List.length_pos_iff.mpr none
      rw [VideoFrame.fecSlots, if_neg (by omega)]
    have encoded := encoded.resolve_left none
    rw [slots] at few encoded restores
    exact h.flush_short some_source none few encoded restores ndebug short

end Flush
end FrameProcessor

namespace VideoReceiver
section Calls
variable (jerasure : Jerasure) (ndebug : Bool)

/-! ## What is to be shown -/

/-- What a call of `chiaki_video_receiver_flush_frame` assembles. -/
def assembled (answers : FlushAnswers) (receiver : VideoReceiver) : Option Bytes :=
  match receiver.frameProcessor.flush jerasure ndebug answers.memory with
  | .ok (_, .success, frame) => frame
  | .ok (_, .fecSuccess, frame) => frame
  | _ => none

/-- The call in `flushLast`. -/
def callsLast (answers : FlushAnswers) (receiver : VideoReceiver) : List (FlushAnswers × VideoReceiver) :=
  if 0 ≤ receiver.frameIndexCur ∧ receiver.frameIndexPrev ≠ receiver.frameIndexCur then [(answers, receiver)] else []

/-- The call in `flushThis`. -/
def callsThis (answers : FlushAnswers) (receiver : VideoReceiver) (packet : TakionAVPacket) :
    List (FlushAnswers × VideoReceiver) :=
  if receiver.frameIndexCur ≠ receiver.frameIndexPrev ∧
      (receiver.frameProcessor.flushPossible ∨ packet.unitIndex + 1 = packet.unitsInFrameTotal) then
    [(answers, receiver)]
  else []

/-- The calls of `chiaki_video_receiver_flush_frame` that `avPacket` makes, each with the state it is made in. -/
def calls (receiver : VideoReceiver) : Op → List (FlushAnswers × VideoReceiver)
  | .streamInfo _ => []
  | .avPacket answers packet =>
      if receiver.isOld (packet.frameIndex % 2 ^ 16) then []
      else
        match receiver.checkAdaptiveStreamIndex ndebug packet with
        | .ok (profiled, _, true) =>
            (if profiled.isNext (packet.frameIndex % 2 ^ 16) then profiled.callsLast answers.last else []) ++
              match profiled.nextFrame jerasure ndebug answers packet (packet.frameIndex % 2 ^ 16) with
              | .ok (framed, _) =>
                  match framed.putUnit packet with
                  | .ok (stored, _) => stored.callsThis answers.this packet
                  | .error _ => []
              | .error _ => []
        | _ => []

/-- What is assembled in a run for the frame of this index. -/
def assemblies (index : Nat) : VideoReceiver → List Op → List Bytes
  | _, [] => []
  | receiver, op :: ops =>
      ((receiver.calls jerasure ndebug op).filter fun call => call.2.frameIndexCur = (index : Int)).filterMap
          (fun call => call.2.assembled jerasure ndebug call.1) ++
        match receiver.step jerasure ndebug op with
        | .ok (receiver', _) => assemblies index receiver' ops
        | .error _ => []

/-- The packet gets as far as its frame: the profile is there and the flush of the frame before goes through. -/
def Enters (receiver : VideoReceiver) (answers : PacketAnswers) (packet : TakionAVPacket) : Prop :=
  ∃ profiled header framed started,
    receiver.checkAdaptiveStreamIndex ndebug packet = .ok (profiled, header, true) ∧
    profiled.nextFrame jerasure ndebug answers packet (packet.frameIndex % 2 ^ 16) = .ok (framed, started)

end Calls

/-- A packet with a unit of the frame, and there is memory when it is flushed. -/
def Arrives (frame : VideoFrame) (index stream : Nat) : Op → Prop
  | .streamInfo profiles => profiles.length ≤ videoProfilesMax
  | .avPacket answers packet => frame.IsUnit packet ∧ packet.frameIndex % 2 ^ 16 = index ∧
      packet.adaptiveStreamIndex = stream ∧ answers.this.memory = ⟨true, true, true, true⟩

def Op.unit : Op → Option Nat
  | .streamInfo _ => none
  | .avPacket _ packet => some packet.unitIndex

/-! ## When it holds -/

/-- The last unit of the frame is not there before there are as many units as the frame has source units. -/
def InTime (frame : VideoFrame) : Finset Nat → List Nat → Prop
  | _, [] => True
  | got, i :: units => frame.source.length ≤ (insert i got).card ∨
      i + 1 ≠ frame.unitCount ∧ InTime frame (insert i got) units

/-- The index is not that of the last frame that was flushed, or the frame in between is flushed now. -/
def Due (receiver : VideoReceiver) (index : Nat) : Prop :=
  receiver.frameIndexPrev ≠ index ∨ 0 ≤ receiver.frameIndexCur ∧
    receiver.frameProcessor.unitsSourceExpected ≠ 0 ∧ receiver.frameProcessor.flushed = false

/-! ## Flushed frames -/

section Flush
variable {jerasure : Jerasure} {ndebug : Bool} {index : Nat}

theorem finishFrame_kept {receiver receiver' : VideoReceiver} {frame : Bytes} {succ recovered accepted : Bool}
    {events : List VideoEvent} (h : receiver.finishFrame frame succ recovered accepted = .ok (receiver', events)) :
    receiver'.profileCur = receiver.profileCur ∧ receiver'.frameIndexPrev = receiver.frameIndexCur := by
  rcases finishFrame_inv h with ⟨-, -, lost, -, rfl⟩ | ⟨-, -, -, rfl⟩ | ⟨-, -, -, rfl⟩
  · exact ⟨rfl, rfl⟩
  · exact ⟨rfl, rfl⟩
  · cases accepted <;> exact ⟨rfl, rfl⟩

theorem flushFrame_kept {answers : FlushAnswers} {receiver receiver' : VideoReceiver} {events : List VideoEvent}
    (h : receiver.flushFrame jerasure ndebug answers = .ok (receiver', events)) :
    receiver'.profileCur = receiver.profileCur ∧
      receiver'.frameIndexPrev =
        if receiver.frameProcessor.unitsSourceExpected = 0 ∨ receiver.frameProcessor.flushed = true then
          receiver.frameIndexPrev
        else receiver.frameIndexCur := by
  obtain ⟨fp, result, frame, flushed, ⟨rfl, rfl, -⟩ | ⟨rfl, lost, -, rfl, -⟩ |
    ⟨good, frame', succ, recovered, -, finished⟩⟩ := flushFrame_inv h
  all_goals obtain ⟨-, refused⟩ := FrameProcessor.Flushed.flush_frame flushed
  all_goals rw [← if_congr refused rfl rfl]
  · exact ⟨rfl, rfl⟩
  · exact ⟨rfl, rfl⟩
  · have kept := finishFrame_kept finished
    rw [if_neg (by cases good with | inl good => simp [good] | inr good => simp [good])]
    exact kept

/-- The index is the last that was flushed exactly if no frame is flushed in between. -/
theorem flushLast_due {answers : FlushAnswers} {receiver receiver' : VideoReceiver} {events : List VideoEvent}
    (h : receiver.flushLast jerasure ndebug answers = .ok (receiver', events))
    (other : receiver.frameIndexCur ≠ index) : receiver'.frameIndexPrev ≠ index ↔ receiver.Due index := by
  unfold flushLast at h
  unfold Due
  split at h
  · rename_i due
    rw [(flushFrame_kept h).2]
    by_cases refused : receiver.frameProcessor.unitsSourceExpected = 0 ∨ receiver.frameProcessor.flushed = true
    · rw [if_pos refused]
      cases refused with
      | inl none => simp [none]
      | inr flushed => simp [flushed]
    · rw [if_neg refused]
      rw [not_or, Bool.not_eq_true] at refused
      exact ⟨fun _ => .inr ⟨due.1, refused⟩, fun _ => other⟩
  · rename_i done
    obtain ⟨rfl, -⟩ := Prod.mk.inj (Except.ok.inj h)
    refine ⟨.inl, fun due prev => ?_⟩
    cases due with
    | inl new => exact new prev
    | inr going => exact done ⟨going.1, fun same => other (same.symm.trans prev)⟩

theorem flushLast_kept {answers : FlushAnswers} {receiver receiver' : VideoReceiver} {events : List VideoEvent}
    (h : receiver.flushLast jerasure ndebug answers = .ok (receiver', events)) :
    receiver'.profileCur = receiver.profileCur := by
  unfold flushLast at h
  split at h
  · exact (flushFrame_kept h).1
  · obtain ⟨rfl, -⟩ := Prod.mk.inj (Except.ok.inj h)
    rfl

/-- The frame of this index is current, and done with. -/
structure Settled (receiver : VideoReceiver) (index : Nat) : Prop where
  cur : receiver.frameIndexCur = index
  prev : receiver.frameIndexPrev = index

theorem isNext_ne {receiver : VideoReceiver} {frameIndex : Nat} (bound : frameIndex < 2 ^ 16)
    (h : receiver.isNext frameIndex = true) : receiver.frameIndexCur ≠ frameIndex := by
  intro same
  rw [isNext, same, seqNum16_natCast, Nat.mod_eq_of_lt bound, decide_eq_false (by omega), Bool.false_or,
    seqNum16Gt, seqNumGt, if_pos rfl] at h
  cases h

theorem isOld_self {receiver : VideoReceiver} {frameIndex : Nat} (bound : frameIndex < 2 ^ 16)
    (same : receiver.frameIndexCur = frameIndex) : receiver.isOld frameIndex = false := by
  rw [isOld, same, seqNum16_natCast, Nat.mod_eq_of_lt bound, seqNum16Lt, seqNumLt, if_pos rfl, Bool.and_false]

theorem isNext_self {receiver : VideoReceiver} {frameIndex : Nat} (bound : frameIndex < 2 ^ 16)
    (same : receiver.frameIndexCur = frameIndex) : receiver.isNext frameIndex = false := by
  cases next : receiver.isNext frameIndex with
  | false => rfl
  | true => exact absurd same (isNext_ne bound next)

section Settled
variable {receiver : VideoReceiver} (h : Settled receiver index)
include h

theorem Settled.calls (bound : index < 2 ^ 16) (op : Op) :
    ((receiver.calls jerasure ndebug op).filter fun call => call.2.frameIndexCur = (index : Int)) = [] := by
  cases op with
  | streamInfo profiles => rfl
  | avPacket answers packet =>
      rw [VideoReceiver.calls]
      split
      · rfl
      split
      · rename_i profiled header checked
        obtain ⟨⟨profile, bitstream, rfl⟩, -⟩ := checkAdaptiveStreamIndex_inv checked
        have last : callsLast answers.last { receiver with profileCur := profile, bitstream := bitstream } = [] := by
          rw [callsLast, if_neg]
          rw [h.cur, h.prev]
          exact fun due => due.2 rfl
        rw [last, ite_self, List.nil_append]
        split
        · rename_i framed started next
          split
          · rename_i stored put stores
            obtain ⟨⟨fp, rfl, -⟩, -⟩ := putUnit_inv stores
            rcases nextFrame_inv next with ⟨-, rfl, -⟩ |
                ⟨stats, flushed, between, begun, isNext, -, flush, start, -⟩
            · rw [callsThis, if_neg]
              · rfl
              · rw [h.cur, h.prev]
                exact fun due => due.1 rfl
            · have cur := startFrame_cur start
              have other : ¬ framed.frameIndexCur = (index : Int) := by
                intro same
                rw [cur] at same
                have index_eq : packet.frameIndex % 2 ^ 16 = index := by exact_mod_cast same
                rw [index_eq] at isNext
                exact isNext_ne bound isNext h.cur
              rw [callsThis]
              split
              · rw [List.filter_cons_of_neg (by simpa using other), List.filter_nil]
              · rfl
          · rfl
        · rfl
      · rfl

theorem Settled.step (bound : index < 2 ^ 16) {frame : VideoFrame} {stream : Nat} {op : Op}
    (arrives : Arrives frame index stream op) {receiver' : VideoReceiver} {events : List VideoEvent}
    (stepped : receiver.step jerasure ndebug op = .ok (receiver', events)) : Settled receiver' index := by
  cases op with
  | streamInfo profiles =>
      obtain ⟨profiles', rfl, -⟩ := streamInfo_inv stepped
      exact ⟨h.cur, h.prev⟩
  | avPacket answers packet =>
      obtain ⟨-, index_eq, -⟩ := arrives
      rcases avPacket_inv stepped with ⟨rfl, -⟩ | checked |
        ⟨profiled, header, framed, started, stored, put, flushed, -, checked, next, unit, flush, -⟩
      · exact h
      · obtain ⟨⟨profile, bitstream, rfl⟩, -⟩ := checkAdaptiveStreamIndex_inv checked
        exact ⟨h.cur, h.prev⟩
      · obtain ⟨⟨profile, bitstream, rfl⟩, -⟩ := checkAdaptiveStreamIndex_inv checked
        obtain ⟨⟨fp, rfl, -⟩, -⟩ := putUnit_inv unit
        rcases nextFrame_inv next with ⟨-, rfl, -⟩ | ⟨-, -, between, -, isNext, -⟩
        · rcases flushThis_inv flush with ⟨rfl, -⟩ | ⟨due, -⟩
          · exact ⟨h.cur, h.prev⟩
          · exact absurd (h.prev.trans h.cur.symm) due
        · rw [index_eq] at isNext
          exact absurd h.cur (isNext_ne bound isNext)

theorem Settled.assemblies (bound : index < 2 ^ 16) {frame : VideoFrame} {stream : Nat} {ops next : List Op}
    (arrive : ∀ op ∈ ops, Arrives frame index stream op) (one : next.length ≤ 1) :
    VideoReceiver.assemblies jerasure ndebug index receiver (ops ++ next) = [] := by
  induction ops generalizing receiver with
  | nil =>
      match next with
      | [] => rfl
      | [op] =>
          rw [List.nil_append, VideoReceiver.assemblies, h.calls bound, List.filterMap_nil, List.nil_append]
          cases receiver.step jerasure ndebug op <;> rfl
      | op :: op' :: rest => simp at one
  | cons op ops ih =>
      obtain ⟨arrives, later⟩ := List.forall_mem_cons.mp arrive
      rw [List.cons_append, VideoReceiver.assemblies, h.calls bound, List.filterMap_nil, List.nil_append]
      cases stepped : receiver.step jerasure ndebug op with
      | error e => rfl
      | ok r => exact ih (h.step bound arrives stepped) later

end Settled

theorem calls_avPacket {receiver profiled framed stored : VideoReceiver} {answers : PacketAnswers}
    {packet : TakionAVPacket} {header started put : List VideoEvent}
    (old : receiver.isOld (packet.frameIndex % 2 ^ 16) = false)
    (checked : receiver.checkAdaptiveStreamIndex ndebug packet = .ok (profiled, header, true))
    (next : profiled.nextFrame jerasure ndebug answers packet (packet.frameIndex % 2 ^ 16) = .ok (framed, started))
    (stores : framed.putUnit packet = .ok (stored, put)) :
    receiver.calls jerasure ndebug (.avPacket answers packet) =
      (if profiled.isNext (packet.frameIndex % 2 ^ 16) then profiled.callsLast answers.last else []) ++
        stored.callsThis answers.this packet := by
  rw [calls, old, if_neg (by decide), checked]
  dsimp only
  rw [next]
  dsimp only
  rw [stores]

theorem assemblies_avPacket {receiver profiled framed stored : VideoReceiver} {answers : PacketAnswers}
    {packet : TakionAVPacket} {header started put : List VideoEvent}
    (index_eq : packet.frameIndex % 2 ^ 16 = index) (old : receiver.isOld index = false)
    (checked : receiver.checkAdaptiveStreamIndex ndebug packet = .ok (profiled, header, true))
    (next : profiled.nextFrame jerasure ndebug answers packet index = .ok (framed, started))
    (last : ((if profiled.isNext index then profiled.callsLast answers.last else []).filter
      fun call => call.2.frameIndexCur = (index : Int)) = [])
    (stores : framed.putUnit packet = .ok (stored, put)) (ops : List Op) :
    assemblies jerasure ndebug index receiver (.avPacket answers packet :: ops) =
      ((stored.callsThis answers.this packet).filter fun call => call.2.frameIndexCur = (index : Int)).filterMap
          (fun call => call.2.assembled jerasure ndebug call.1) ++
        match stored.flushThis jerasure ndebug answers.this packet with
        | .ok (receiver', _) => assemblies jerasure ndebug index receiver' ops
        | .error _ => [] := by
  subst index_eq
  rw [assemblies, calls_avPacket old checked next stores, List.filter_append, last, List.nil_append]
  congr 1
  rw [step, avPacket]
  dsimp only
  rw [old, if_neg (by decide), checked, ok_bind]
  dsimp only
  rw [Bool.not_true, if_neg (by decide), next, ok_bind, stores, ok_bind]
  cases stored.flushThis jerasure ndebug answers.this packet <;> rfl

end Flush

/-! ## Frames that are built up -/

/-- The frame of this index is current, and these of its units are there. -/
structure Building (frame : VideoFrame) (index stream : Nat) (got : Finset Nat) (receiver : VideoReceiver) : Prop where
  cur : receiver.frameIndexCur = index
  prev : receiver.frameIndexPrev ≠ index
  profile : receiver.profileCur = stream
  holding : ∃ slots buf, FrameProcessor.Holding frame got receiver.frameProcessor slots buf

section Building
variable {jerasure : Jerasure} {ndebug : Bool} {index stream : Nat}
variable {frame : VideoFrame} (some_source : frame.source ≠ [])
variable (few : frame.source.length + frame.fecSlots ≤ unitSlotsMax)
variable {got : Finset Nat} {receiver : VideoReceiver} (h : Building frame index stream got receiver)
variable {answers : PacketAnswers} {packet : TakionAVPacket}
variable (arrives : Arrives frame index stream (.avPacket answers packet))
include some_source h arrives

theorem Building.putUnit : ∃ stored put, receiver.putUnit packet = .ok (stored, put) ∧
    Building frame index stream (insert packet.unitIndex got) stored := by
  obtain ⟨slots, buf, holding⟩ := h.holding
  obtain ⟨fp, err, slots', buf', put, holding'⟩ := holding.putUnit some_source arrives.1
  refine ⟨{ receiver with frameProcessor := fp }, if err = .success then [.stored packet] else [], ?_, h.cur, h.prev, h.profile, slots', buf', holding'⟩
  rw [VideoReceiver.putUnit, put]
  rfl

/-- Behind "next frame?" the unit is stored, and the frame is flushed when it is due. -/
theorem Building.assemblies_packet {before profiled : VideoReceiver} {header started : List VideoEvent}
    (old : before.isOld index = false)
    (checked : before.checkAdaptiveStreamIndex ndebug packet = .ok (profiled, header, true))
    (next : profiled.nextFrame jerasure ndebug answers packet index = .ok (receiver, started))
    (last : ((if profiled.isNext index then profiled.callsLast answers.last else []).filter
      fun call => call.2.frameIndexCur = (index : Int)) = []) (ops : List Op) :
    ∃ stored, Building frame index stream (insert packet.unitIndex got) stored ∧
      assemblies jerasure ndebug index before (.avPacket answers packet :: ops) =
        ((stored.callsThis answers.this packet).filter fun call => call.2.frameIndexCur = (index : Int)).filterMap
            (fun call => call.2.assembled jerasure ndebug call.1) ++
          match stored.flushThis jerasure ndebug answers.this packet with
          | .ok (receiver', _) => assemblies jerasure ndebug index receiver' ops
          | .error _ => [] := by
  obtain ⟨stored, put, stores, building⟩ := h.putUnit some_source arrives
  exact ⟨stored, building, assemblies_avPacket arrives.2.1 old checked next last stores ops⟩

theorem Building.assemblies_unit (bound : index < 2 ^ 16) (ops : List Op) :
    ∃ stored, Building frame index stream (insert packet.unitIndex got) stored ∧
      assemblies jerasure ndebug index receiver (.avPacket answers packet :: ops) =
        ((stored.callsThis answers.this packet).filter fun call => call.2.frameIndexCur = (index : Int)).filterMap
            (fun call => call.2.assembled jerasure ndebug call.1) ++
          match stored.flushThis jerasure ndebug answers.this packet with
          | .ok (receiver', _) => assemblies jerasure ndebug index receiver' ops
          | .error _ => [] := by
  have next := isNext_self bound h.cur
  refine h.assemblies_packet some_source arrives (isOld_self bound h.cur)
    (show receiver.checkAdaptiveStreamIndex ndebug packet = .ok (receiver, [], true) from ?_)
    (show receiver.nextFrame jerasure ndebug answers packet index = .ok (receiver, []) from ?_) ?_ ops
  · rw [checkAdaptiveStreamIndex, if_pos]
    · rfl
    · rw [h.profile, arrives.2.2.1]
      exact ⟨by omega, rfl⟩
  · rw [nextFrame, next]
    rfl
  · rw [next]
    rfl

end Building

section Stored
variable {jerasure : Jerasure} {ndebug : Bool} {index stream : Nat}
variable {frame : VideoFrame} (some_source : frame.source ≠ [])
variable (few : frame.source.length + frame.fecSlots ≤ unitSlotsMax)
variable {got : Finset Nat} {stored : VideoReceiver} (h : Building frame index stream got stored)
variable {answers : PacketAnswers} {packet : TakionAVPacket}
variable (arrives : Arrives frame index stream (.avPacket answers packet))

include few h in
theorem Building.flushPossible :
    stored.frameProcessor.flushPossible = decide (frame.source.length ≤ got.card) := by
  obtain ⟨slots, buf, holding⟩ := h.holding
  have card := holding.card_le
  have fits := frame.unitCount_le
  have bound : unitSlotsMax < 2 ^ 32 := by decide
  rw [FrameProcessor.flushPossible, holding.received, holding.source_eq, Nat.mod_eq_of_lt (by omega)]

include few h arrives in
theorem Building.callsThis_due (due : frame.source.length ≤ got.card ∨ packet.unitIndex + 1 = frame.unitCount) :
    stored.callsThis answers.this packet = [(answers.this, stored)] ∧
      stored.flushThis jerasure ndebug answers.this packet = stored.flushFrame jerasure ndebug answers.this := by
  have cond : stored.frameIndexCur ≠ stored.frameIndexPrev ∧
      (stored.frameProcessor.flushPossible = true ∨ packet.unitIndex + 1 = packet.unitsInFrameTotal) := by
    rw [h.cur, h.flushPossible few, decide_eq_true_iff, arrives.1.total_eq]
    exact ⟨h.prev.symm, due⟩
  exact ⟨if_pos cond, if_pos cond⟩

include few h arrives in
theorem Building.callsThis_early (short : got.card < frame.source.length) (inner : packet.unitIndex + 1 ≠ frame.unitCount) :
    stored.callsThis answers.this packet = [] ∧
      stored.flushThis jerasure ndebug answers.this packet = .ok (stored, []) := by
  have cond : ¬ (stored.frameIndexCur ≠ stored.frameIndexPrev ∧
      (stored.frameProcessor.flushPossible = true ∨ packet.unitIndex + 1 = packet.unitsInFrameTotal)) := by
    rw [h.flushPossible few, decide_eq_true_iff, arrives.1.total_eq]
    rintro ⟨-, enough | last⟩
    · omega
    · exact inner last
  exact ⟨if_neg cond, if_neg cond⟩

include some_source h in
/-- Whatever comes of the flush of a frame that is built up, the frame is done with. -/
theorem Building.settled {flush : FlushAnswers} {receiver' : VideoReceiver} {events : List VideoEvent}
    (flushed : stored.flushFrame jerasure ndebug flush = .ok (receiver', events)) : Settled receiver' index := by
  obtain ⟨slots, buf, holding⟩ := h.holding
  have going := holding.going some_source
  refine ⟨(flushFrame_flushed flushed).cur.trans h.cur, ?_⟩
  rw [(flushFrame_kept flushed).2, if_neg (by simpa using going), h.cur]

end Stored

/-! ## Arrival -/

section Arrival
variable {jerasure : Jerasure} {ndebug : Bool} {index stream : Nat}
variable {frame : VideoFrame} (some_source : frame.source ≠ [])
variable (few : frame.source.length + frame.fecSlots ≤ unitSlotsMax)
variable {encoder : MatrixEncoder}
variable (encoded : frame.fec = [] ∨
  frame.Encoded (encoder.matrixEncode frame.source.length frame.fecSlots frame.unitSize))
variable (restores : Restores jerasure
  (encoder.matrixEncode frame.source.length frame.fecSlots frame.unitSize)
  frame.source.length frame.fecSlots frame.unitSize)
variable (bound : index < 2 ^ 16) {ops next : List Op} (one : next.length ≤ 1)
include some_source few encoded restores bound one

/-- Behind a unit that was stored: the frame is assembled now, never, or when more units are there. -/
theorem Building.assemblies_stored {got : Finset Nat} {stored : VideoReceiver} (h : Building frame index stream got stored)
    {answers : PacketAnswers} {packet : TakionAVPacket}
    (arrives : Arrives frame index stream (.avPacket answers packet))
    (arrive : ∀ op ∈ ops, Arrives frame index stream op)
    (later : got.card < frame.source.length →
      (assemblies jerasure ndebug index stored (ops ++ next) = [frame.payload] ↔
        InTime frame got (ops.filterMap Op.unit))) :
    ((stored.callsThis answers.this packet).filter fun call => call.2.frameIndexCur = (index : Int)).filterMap
            (fun call => call.2.assembled jerasure ndebug call.1) ++
          (match stored.flushThis jerasure ndebug answers.this packet with
          | .ok (receiver', _) => assemblies jerasure ndebug index receiver' (ops ++ next)
          | .error _ => []) = [frame.payload] ↔
      frame.source.length ≤ got.card ∨
        packet.unitIndex + 1 ≠ frame.unitCount ∧ InTime frame got (ops.filterMap Op.unit) := by
  obtain ⟨slots, buf, holding⟩ := h.holding
  have current : ([(answers.this, stored)].filter fun call => call.2.frameIndexCur = (index : Int)) =
      [(answers.this, stored)] := List.filter_cons_of_pos (by simpa using h.cur)
  have nothing : (match stored.flushFrame jerasure ndebug answers.this with
      | .ok (receiver', _) => assemblies jerasure ndebug index receiver' (ops ++ next)
      | .error _ => []) = [] := by
    cases flushed : stored.flushFrame jerasure ndebug answers.this with
    | error e => rfl
    | ok r => exact (h.settled some_source flushed).assemblies bound arrive one
  by_cases enough : frame.source.length ≤ got.card
  · obtain ⟨calls, flush⟩ := @Building.callsThis_due jerasure ndebug _ _ _ few _ _ h _ _ arrives (.inl enough)
    obtain ⟨fp, result, settled, good⟩ :=
      holding.flush_settled some_source few encoded restores ndebug enough
    have payload : stored.assembled jerasure ndebug answers.this = some frame.payload := by
      rw [assembled, arrives.2.2.2, settled]
      cases good with
      | inl good => rw [good]
      | inr good => rw [good]
    rw [calls, flush, current, nothing]
    simp [payload, enough]
  · by_cases last : packet.unitIndex + 1 = frame.unitCount
    · obtain ⟨calls, flush⟩ := @Building.callsThis_due jerasure ndebug _ _ _ few _ _ h _ _ arrives (.inr last)
      obtain ⟨fp, bytes, failed⟩ :=
        holding.flush_early some_source few encoded restores ndebug (by omega)
      have none : stored.assembled jerasure ndebug answers.this = none := by
        rw [assembled, arrives.2.2.2, failed]
      rw [calls, flush, current, nothing]
      simp [none, enough, last]
    · obtain ⟨calls, flush⟩ :=
        @Building.callsThis_early jerasure ndebug _ _ _ few _ _ h _ _ arrives (by omega) last
      rw [calls, flush]
      simpa [enough, last] using later (by omega)

theorem Building.assemblies {got : Finset Nat} {receiver : VideoReceiver}
    (h : Building frame index stream got receiver) (short : got.card < frame.source.length)
    (arrive : ∀ op ∈ ops, Arrives frame index stream op)
    (enough : frame.source.length ≤ (got ∪ (ops.filterMap Op.unit).toFinset).card) :
    VideoReceiver.assemblies jerasure ndebug index receiver (ops ++ next) = [frame.payload] ↔
      InTime frame got (ops.filterMap Op.unit) := by
  induction ops generalizing got receiver with
  | nil =>
      rw [List.filterMap_nil, List.toFinset_nil, Finset.union_empty] at enough
      omega
  | cons op ops ih =>
      obtain ⟨arrives, later⟩ := List.forall_mem_cons.mp arrive
      cases op with
      | streamInfo profiles =>
          obtain ⟨receiver', informed, kept⟩ : ∃ receiver', receiver.step jerasure ndebug (.streamInfo profiles) =
              .ok (receiver', []) ∧ Building frame index stream got receiver' := by
            rw [VideoReceiver.step, streamInfo]
            have fits : ¬ profiles.length > videoProfilesMax := Nat.not_lt.mpr arrives
            split
            · exact ⟨receiver, rfl, h⟩
            · exact ⟨_, rfl, h.cur, h.prev, h.profile, h.holding⟩
          rw [List.cons_append, VideoReceiver.assemblies, informed]
          exact ih kept short later enough
      | avPacket answers packet =>
          obtain ⟨stored, building, eq⟩ :=
            @Building.assemblies_unit jerasure ndebug _ _ _ some_source _ _ h _ _ arrives bound (ops ++ next)
          rw [List.cons_append, eq]
          have units : (got ∪ ((Op.avPacket answers packet :: ops).filterMap Op.unit).toFinset) =
              insert packet.unitIndex got ∪ (ops.filterMap Op.unit).toFinset := by
            rw [show (Op.avPacket answers packet :: ops).filterMap Op.unit = packet.unitIndex :: ops.filterMap Op.unit
              from rfl, List.toFinset_cons, Finset.union_insert, Finset.insert_union]
          rw [units] at enough
          exact building.assemblies_stored some_source few encoded restores bound one arrives later
            fun more => ih building more later enough

end Arrival

/-! ## The first unit -/

section First
variable {jerasure : Jerasure} {ndebug : Bool}

theorem checkAdaptiveStreamIndex_profile {receiver profiled : VideoReceiver} {packet : TakionAVPacket}
    {header : List VideoEvent}
    (h : receiver.checkAdaptiveStreamIndex ndebug packet = .ok (profiled, header, true)) :
    profiled.profileCur = packet.adaptiveStreamIndex := by
  unfold checkAdaptiveStreamIndex at h
  split at h
  · rename_i current
    obtain ⟨rfl, -⟩ := Prod.mk.inj (Except.ok.inj h)
    exact current.2
  split at h
  · cases h
  · obtain ⟨⟨bitstream, parsed⟩, -, h⟩ := bind_eq_ok h
    obtain ⟨rfl, -⟩ := Prod.mk.inj (Except.ok.inj h)
    rfl

theorem flushLast_allocated {answers : FlushAnswers} {receiver receiver' : VideoReceiver} {events : List VideoEvent}
    (allocated : receiver.frameProcessor.Allocated)
    (h : receiver.flushLast jerasure ndebug answers = .ok (receiver', events)) :
    receiver'.frameProcessor.Allocated := by
  rcases flushLast_inv h with ⟨rfl, -⟩ | ⟨-, -, flushed⟩
  · exact allocated
  · exact flushed.blocks.allocated allocated

theorem step_allocated {receiver receiver' : VideoReceiver} {op : Op} {events : List VideoEvent}
    (allocated : receiver.frameProcessor.Allocated)
    (stepped : receiver.step jerasure ndebug op = .ok (receiver', events)) :
    receiver'.frameProcessor.Allocated := by
  cases op with
  | streamInfo profiles =>
      obtain ⟨profiles', rfl, -⟩ := streamInfo_inv stepped
      exact allocated
  | avPacket answers packet =>
      rcases avPacket_inv stepped with ⟨rfl, -⟩ | checked |
        ⟨profiled, header, framed, started, stored, put, flushed, -, checked, next, unit, flush, -⟩
      · exact allocated
      · obtain ⟨⟨profile, bitstream, rfl⟩, -⟩ := checkAdaptiveStreamIndex_inv checked
        exact allocated
      · obtain ⟨⟨profile, bitstream, rfl⟩, -⟩ := checkAdaptiveStreamIndex_inv checked
        have framing : framed.frameProcessor.Allocated := by
          rcases nextFrame_inv next with ⟨-, rfl, -⟩ |
            ⟨stats, flushed, between, begun, -, -, last, start, -⟩
          · exact allocated
          · obtain ⟨⟨fp, err⟩, done, start⟩ := bind_eq_ok start
            obtain ⟨rfl, -⟩ := Prod.mk.inj (Except.ok.inj start)
            have before := @flushLast_allocated _ _ _ _ _ _
              (show ({ receiver with profileCur := profile, bitstream := bitstream } : VideoReceiver)
                |>.frameProcessor.Allocated from allocated) last
            obtain ⟨fp', err', done', allocated'⟩ :=
              FrameProcessor.allocFrame_allocated before packet answers.alloc
            obtain ⟨rfl, -⟩ := Prod.mk.inj (Except.ok.inj (done.symm.trans done'))
            exact allocated'
        obtain ⟨⟨fp, rfl, blocks⟩, -⟩ := putUnit_inv unit
        rcases flushThis_inv flush with ⟨rfl, -⟩ | ⟨-, flushed⟩
        · exact blocks.allocated framing
        · exact flushed.blocks.allocated (blocks.allocated framing)

variable {frame : VideoFrame} (some_source : frame.source ≠ [])
variable (few : frame.source.length + frame.fecSlots ≤ unitSlotsMax)
variable {index stream : Nat} {answers : PacketAnswers} {first : TakionAVPacket}

include some_source few in
theorem startFrame_holding {between framed : VideoReceiver} {begun : List VideoEvent}
    (allocated : between.frameProcessor.Allocated) (isUnit : frame.IsUnit first)
    (start : between.startFrame ⟨true, true⟩ first index = .ok (framed, begun)) :
    framed.frameIndexCur = index ∧ framed.frameIndexPrev = between.frameIndexPrev ∧
      framed.profileCur = between.profileCur ∧
      ∃ slots buf, FrameProcessor.Holding frame ∅ framed.frameProcessor slots buf := by
  obtain ⟨started, done, starts⟩ := FrameProcessor.allocFrame_frame frame some_source few allocated isUnit
  rw [startFrame, done, ok_bind] at start
  obtain ⟨rfl, -⟩ := Prod.mk.inj (Except.ok.inj start)
  exact ⟨rfl, rfl, rfl, starts.holding some_source⟩

theorem isOld_of_isNext {receiver : VideoReceiver} (bound : index < 2 ^ 16) (h : receiver.isNext index = true) :
    receiver.isOld index = false := by
  by_cases going : 0 ≤ receiver.frameIndexCur
  · have small : seqNum16 receiver.frameIndexCur < 2 ^ 16 := by
      unfold seqNum16
      omega
    rw [isNext, decide_eq_false (by omega), Bool.false_or] at h
    have after := (@seqNumGt_iff 16 _ _ (by decide) bound small).mp h
    rw [isOld, decide_eq_true going, Bool.true_and, Bool.eq_false_iff]
    intro old
    exact after.asymm (by decide) ((@seqNumLt_iff 16 _ _ (by decide) bound small).mp old)
  · rw [isOld, decide_eq_false going, Bool.false_and]

end First

/-- A frame of which enough units arrive, behind those of older frames and before those of newer ones, is
assembled once if the last unit does not come too early, and otherwise never. -/
theorem assembledOnce_iff {jerasure : Jerasure} {ndebug : Bool} {codec : Codec} {sps : Nat}
    {packetStats videoSampleCb : Bool} {before : List Op} {receiver : VideoReceiver} {events : List (List VideoEvent)}
    (ran : run (step jerasure ndebug) (init codec sps packetStats videoSampleCb) before = .ok (receiver, events))
    {frame : VideoFrame} (some_source : frame.source ≠ [])
    (few : frame.source.length + frame.fecSlots ≤ unitSlotsMax) {encoder : MatrixEncoder}
    (encoded : frame.fec = [] ∨
      frame.Encoded (encoder.matrixEncode frame.source.length frame.fecSlots frame.unitSize))
    (restores : Restores jerasure
      (encoder.matrixEncode frame.source.length frame.fecSlots frame.unitSize)
      frame.source.length frame.fecSlots frame.unitSize)
    {index stream : Nat} {answers : PacketAnswers} {first : TakionAVPacket} {rest next : List Op}
    (arrive : ∀ op ∈ .avPacket answers first :: rest, Arrives frame index stream op)
    (memory : answers.alloc = ⟨true, true⟩) (newer : receiver.isNext index = true)
    (enters : receiver.Enters jerasure ndebug answers first)
    (enough : frame.source.length ≤ ((Op.avPacket answers first :: rest).filterMap Op.unit).toFinset.card)
    (one : next.length ≤ 1) :
    assemblies jerasure ndebug index receiver (.avPacket answers first :: rest ++ next) = [frame.payload] ↔
      receiver.Due index ∧ InTime frame ∅ ((Op.avPacket answers first :: rest).filterMap Op.unit) := by
  obtain ⟨arrives, later⟩ := List.forall_mem_cons.mp arrive
  have index_eq := arrives.2.1
  have bound : index < 2 ^ 16 := by rw [← index_eq]; exact Nat.mod_lt _ (by decide)
  have allocated : receiver.frameProcessor.Allocated :=
    run_preserves (fun r => r.frameProcessor.Allocated) (fun _ _ _ _ => step_allocated)
      FrameProcessor.init_allocated ran
  obtain ⟨profiled, header, framed, started, checked, moved⟩ := enters
  have profile := checkAdaptiveStreamIndex_profile checked
  have old := isOld_of_isNext bound newer
  rw [index_eq] at moved
  obtain ⟨⟨p, bitstream, profiled_eq⟩, -⟩ := checkAdaptiveStreamIndex_inv checked
  have due : profiled.Due index ↔ receiver.Due index := by rw [profiled_eq]; rfl
  have newer : profiled.isNext index = true := by rwa [isNext_congr (by rw [profiled_eq])]
  have allocated : profiled.frameProcessor.Allocated := by rwa [profiled_eq]
  have other := isNext_ne bound newer
  have last : ((if profiled.isNext index then profiled.callsLast answers.last else []).filter
      fun call => call.2.frameIndexCur = (index : Int)) = [] := by
    rw [if_pos newer, callsLast]
    split
    · rw [List.filter_cons_of_neg (by simpa using other), List.filter_nil]
    · rfl
  rcases nextFrame_inv moved with ⟨same, -⟩ | ⟨stats, flushed, between, begun, -, -, flush, start, -⟩
  · rw [newer] at same
    cases same
  rw [memory] at start
  obtain ⟨cur, prev, stream_eq, holding⟩ := startFrame_holding some_source few
    (flushLast_allocated allocated flush) arrives.1 start
  rw [← due, ← flushLast_due flush other, ← prev]
  by_cases new : framed.frameIndexPrev ≠ index
  · have building : Building frame index stream ∅ framed :=
      ⟨cur, new, by rw [stream_eq, flushLast_kept flush, profile, arrives.2.2.1], holding⟩
    obtain ⟨stored, building', eq⟩ := building.assemblies_packet some_source arrives old checked moved last
      (rest ++ next)
    rw [List.cons_append, eq]
    refine (building'.assemblies_stored some_source few encoded restores bound one arrives later
      fun more => building'.assemblies some_source few encoded restores bound one more later ?_).trans ?_
    · rwa [Finset.insert_empty, ← Finset.insert_eq, ← List.toFinset_cons]
    · exact (and_iff_right new).symm
  · obtain ⟨slots, buf, holding⟩ := holding
    obtain ⟨fp, err, slots', buf', put, -⟩ := holding.putUnit some_source arrives.1
    have stores : framed.putUnit first = .ok ({ framed with frameProcessor := fp },
        if err = .success then [.stored first] else []) := by
      rw [putUnit, put]
      rfl
    have settled : Settled { framed with frameProcessor := fp } index := ⟨cur, not_ne_iff.mp new⟩
    have done : ¬ (framed.frameIndexCur ≠ framed.frameIndexPrev) := by
      rw [cur, not_ne_iff.mp new]
      exact fun differ => differ rfl
    rw [List.cons_append, assemblies_avPacket index_eq old checked moved last stores, callsThis,
      if_neg fun due => done due.1, flushThis, if_neg fun due => done due.1]
    have nothing := @Settled.assemblies jerasure ndebug _ _ settled bound _ _ _ _ later one
    simp [pure, Except.pure, nothing, new]

/-- A receiver that knows one profile. -/
def informed : VideoReceiver := { init .h264 0 true true with profiles := [[]] }

theorem assembledOnce_last_unit :
    assemblies FrameProcessor.copyDecoder false 1 informed
      [.avPacket willing (unitPacket 1 1 2 1 [0, 0, 5] (by decide)),
        .avPacket willing (unitPacket 1 0 2 1 [0, 0, 5] (by decide)),
        .avPacket willing (unitPacket 2 0 2 1 [0, 0, 6] (by decide))] = [[5]] := by
  refine (@assembledOnce_iff FrameProcessor.copyDecoder false .h264 0 true true [.streamInfo [[]]] informed _ rfl
    FrameProcessor.copiedUnit (by decide) (by decide) copyEncoder (.inr rfl) (copyEncoder_restores 3) 1 0 willing
    (unitPacket 1 1 2 1 [0, 0, 5] (by decide)) [.avPacket willing (unitPacket 1 0 2 1 [0, 0, 5] (by decide))]
    [.avPacket willing (unitPacket 2 0 2 1 [0, 0, 6] (by decide))] ?_ rfl rfl ⟨_, _, _, _, rfl, rfl⟩ (by decide)
    (by decide)).mpr ⟨.inl (by decide), .inl (by decide)⟩
  intro op member
  simp only [List.mem_cons, List.not_mem_nil, or_false] at member
  rcases member with rfl | rfl <;> exact ⟨⟨rfl, rfl, rfl, by decide, rfl⟩, rfl, rfl, rfl⟩

end VideoReceiver

/-! ## Units that come too early -/

def xorUnits (a b : Bytes) : Bytes := List.zipWith (· ^^^ ·) a b

theorem xorUnits_length {a b : Bytes} (same : a.length = b.length) : (xorUnits a b).length = a.length := by
  rw [xorUnits, List.length_zipWith, same, Nat.min_self]

theorem xorUnits_cancel {a b : Bytes} (same : a.length = b.length) : xorUnits (xorUnits a b) b = a :=
  Masking.zipWith_cancel _ Masking.xor_undoes same.le

theorem xorUnits_comm (a b : Bytes) : xorUnits a b = xorUnits b a := by
  unfold xorUnits
  rw [List.zipWith_comm]
  congr 1
  funext x y
  exact UInt8.xor_comm y x

/-- The code for two source units and their sum. -/
def sumDecoder : Jerasure where
  codingMatrix k m := k == 2 && m == 1
  matrixDecode _ _ erasures units :=
    match erasures, units with
    | [], [a, b, c] => (true, [a, b, c])
    | [0], [a, b, c] => if a.length = b.length ∧ b.length = c.length then (true, [xorUnits c b, b, c]) else (false, [a, b, c])
    | [1], [a, b, c] => if a.length = b.length ∧ b.length = c.length then (true, [a, xorUnits c a, c]) else (false, [a, b, c])
    | [2], [a, b, c] => if a.length = b.length ∧ b.length = c.length then (true, [a, b, xorUnits a b]) else (false, [a, b, c])
    | _, units => (false, units)
  decode_shape k m erasures units := by
    split
    · rfl
    · split
      · rename_i same
        simp [xorUnits_length same.2.symm, same]
      · rfl
    · split
      · rename_i same
        simp [xorUnits_length (same.1.trans same.2).symm, same]
      · rfl
    · split
      · rename_i same
        simp [xorUnits_length same.1, same]
      · rfl
    · rfl

def sumEncode (units : List Bytes) : List Bytes := [units.tail.foldl xorUnits (units.headD [])]

theorem sumDecoder_restores (size : Nat) : Restores sumDecoder sumEncode 2 1 size where
  matrix := rfl
  decode := by
    intro source units erasures sourceCount sourceSize count sizes nodup inside same
    obtain ⟨s, t, rfl⟩ := List.length_eq_two.mp sourceCount
    obtain ⟨a, b, c, rfl⟩ := List.length_eq_three.mp count
    have first := same 0 (by decide)
    have second := same 1 (by decide)
    have third := same 2 (by decide)
    simp only [sumEncode, List.tail_cons, List.headD_cons, List.foldl_cons, List.foldl_nil, List.cons_append,
      List.nil_append, List.getElem?_cons_zero, List.getElem?_cons_succ, Option.some.injEq] at first second third ⊢
    have equal : s.length = t.length := by rw [sourceSize s (by simp), sourceSize t (by simp)]
    have lengths : a.length = b.length ∧ b.length = c.length := by
      rw [sizes a (by simp), sizes b (by simp), sizes c (by simp)]
      exact ⟨rfl, rfl⟩
    match erasures with
    | [] =>
        rw [if_pos (by decide), first (by simp), second (by simp), third (by simp)]
        rfl
    | [0] =>
        rw [if_pos (by decide)]
        simp only [sumDecoder, lengths, and_self, if_true]
        rw [second (by simp), third (by simp), xorUnits_cancel equal]
    | [1] =>
        rw [if_pos (by decide)]
        simp only [sumDecoder, lengths, and_self, if_true]
        rw [first (by simp), third (by simp), xorUnits_comm s t, xorUnits_cancel equal.symm]
    | [2] =>
        rw [if_pos (by decide)]
        simp only [sumDecoder, lengths, and_self, if_true]
        rw [first (by simp), second (by simp)]
    | [i + 3] =>
        have bound := inside (i + 3) (by simp)
        omega
    | i :: j :: rest =>
        rw [if_neg (by simp)]
        simp [sumDecoder]

/-- Two source units and their sum. -/
def summedFrame : VideoFrame where
  unitSize := 3
  source := [[0, 0, 5], [0, 0, 6]]
  fec := [[0, 0, 3]]
  source_size := by decide
  fec_size := by decide

/-- All units of a frame arrive, the one with the highest index first. -/
theorem not_assembled_last_first : Restores sumDecoder sumEncode 2 1 3 ∧ summedFrame.Encoded sumEncode ∧
    VideoReceiver.assemblies sumDecoder false 1 VideoReceiver.informed
      [.avPacket VideoReceiver.willing (VideoReceiver.unitPacket 1 2 3 1 [0, 0, 3] (by decide)),
        .avPacket VideoReceiver.willing (VideoReceiver.unitPacket 1 0 3 1 [0, 0, 5] (by decide)),
        .avPacket VideoReceiver.willing (VideoReceiver.unitPacket 1 1 3 1 [0, 0, 6] (by decide)),
        .avPacket VideoReceiver.willing (VideoReceiver.unitPacket 2 0 3 1 [0, 0, 7] (by decide))] = [] ∧
    VideoReceiver.assemblies sumDecoder false 1 VideoReceiver.informed
      [.avPacket VideoReceiver.willing (VideoReceiver.unitPacket 1 0 3 1 [0, 0, 5] (by decide)),
        .avPacket VideoReceiver.willing (VideoReceiver.unitPacket 1 1 3 1 [0, 0, 6] (by decide)),
        .avPacket VideoReceiver.willing (VideoReceiver.unitPacket 1 2 3 1 [0, 0, 3] (by decide)),
        .avPacket VideoReceiver.willing (VideoReceiver.unitPacket 2 0 3 1 [0, 0, 7] (by decide))] =
      [summedFrame.payload] :=
  ⟨sumDecoder_restores 3, rfl, by decide +kernel, by decide +kernel⟩

end Chiaki
