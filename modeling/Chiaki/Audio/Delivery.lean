import Chiaki.Audio.Receiver
import Chiaki.Lib.Newest

/-!
# Which audio frames reach the sink

Frames are counted without bound, a packet carries their numbers modulo `2 ^ 16`. A packet repeats earlier
frames in its FEC units, but they are looked at after the packet's own frames, when they are no longer new.
-/

namespace Chiaki
open Machine

/-- The frames in a packet's units, in the order of the units. -/
def TakionAVPacket.audioFrames (packet : TakionAVPacket) (position : Nat) : List Nat :=
  List.range' position packet.audioSourceUnitsCount ++
    List.range' (position - packet.audioFecUnitsCount) packet.audioFecUnitsCount

/-- A well-formed packet of a stream whose frame `m` is `content m`. -/
structure AudioPacket (isHaptics : Bool) (content : Nat → Bytes) where
  position : Nat
  packet : TakionAVPacket
  isHaptics_eq : packet.isHaptics = isHaptics
  frameIndex_eq : packet.frameIndex = position % 2 ^ 16
  codec_eq : packet.codec = 5
  total_eq : packet.audioFecUnitsCount + packet.audioSourceUnitsCount = packet.unitsInFrameTotal
  repeats : packet.audioFecUnitsCount ≤ position
  sized : ∀ m ∈ packet.audioFrames position, (content m).length = packet.audioUnitSize
  nonempty : packet.data ≠ []
  data_eq : packet.data = ((packet.audioFrames position).map content).flatten

variable {isHaptics : Bool} {content : Nat → Bytes}

namespace AudioPacket

def frames (a : AudioPacket isHaptics content) : List Nat := a.packet.audioFrames a.position

/-- The frame in the first unit. -/
def first (a : AudioPacket isHaptics content) : Nat :=
  if a.packet.audioSourceUnitsCount = 0 then a.position - a.packet.audioFecUnitsCount else a.position

end AudioPacket

/-- The frames of all packets. -/
def audioFrames (packets : List (AudioPacket isHaptics content)) : List Nat := packets.flatMap AudioPacket.frames

/-- The newest frame after some packets. -/
def newestFrame (newest : Nat) (packets : List (AudioPacket isHaptics content)) : Nat :=
  Newest.after newest (audioFrames packets)

/-- Every frame up to the newest is in a unit of one of the packets. -/
def Carried (newest : Nat) (packets : List (AudioPacket isHaptics content)) : Prop :=
  ∀ m, newest < m → m ≤ newestFrame newest packets → ∃ a ∈ packets, m ∈ a.frames

/-- No packet starts beyond the frame that is due: none is left to the FEC units of a packet that has source
units, or to a packet after that one. -/
def StartsDue (newest : Nat) (packets : List (AudioPacket isHaptics content)) : Prop :=
  Follows (fun newest a => Newest.after newest a.frames) (fun newest a => a.first ≤ newest + 1) newest packets

/-- The session has a sink for the frames. -/
def AudioSinks.Has (sinks : AudioSinks) (isHaptics : Bool) : Prop :=
  (if isHaptics then sinks.hapticsFrameCb else sinks.audioFrameCb) = true

def frameCall (isHaptics : Bool) (content : Nat → Bytes) (m : Nat) : SinkFrame :=
  ⟨isHaptics, m % 2 ^ 16, content m⟩

namespace AudioReceiver

/-- The receiver has taken the packet at `last` and nothing newer than frame `newest`. -/
structure At (receiver : AudioReceiver) (last newest : Nat) : Prop where
  prev : receiver.frameIndexPrev = newest % 2 ^ 16
  newest_lt : newest < last + 15
  startup : receiver.frameIndexStartup = true → last ≤ 2 ^ 15

/-- Each frame after `newest` is given to the sink once, in increasing order. -/
structure DeliversOnce (sinks : AudioSinks) (receiver : AudioReceiver) (newest : Nat)
    (packets : List (AudioPacket isHaptics content)) : Prop where
  once : (receiver.avPackets sinks (packets.map AudioPacket.packet)).2 =
    (List.range' (newest + 1) (newestFrame newest packets - newest)).map (frameCall isHaptics content)
  increasing : (receiver.frameIndexPrev :: (receiver.avPackets sinks (packets.map AudioPacket.packet)).2.map
    SinkFrame.frameIndex).IsChain (Serial.Before (2 ^ 16))

theorem init_at (packetStats : Option PacketStats) : (init packetStats).At 0 0 :=
  ⟨rfl, by simp, by simp⟩

/-! ## One unit -/

theorem frame_old {sinks : AudioSinks} {receiver : AudioReceiver} {m newest : Nat} (buf : Bytes)
    (prev : receiver.frameIndexPrev = newest % 2 ^ 16) (old : m ≤ newest) (near : newest < m + 2 ^ 15) :
    receiver.frame sinks (m % 2 ^ 16) isHaptics buf = (receiver, []) := by
  have notNewer : seqNum16Gt (m % 2 ^ 16) receiver.frameIndexPrev = false := by
    rw [Bool.eq_false_iff, prev, seqNum16Gt, ne_eq, seqNumGt_iff (by simp) (Nat.mod_lt _ (by simp)) (Nat.mod_lt _ (by simp)),
      Newest.before_iff_lt (by simp) (by omega) (by omega)]
    exact Nat.not_lt.mpr old
  rw [frame, notNewer]
  rfl

theorem frame_new {sinks : AudioSinks} {receiver : AudioReceiver} {m newest : Nat} (has : sinks.Has isHaptics)
    (prev : receiver.frameIndexPrev = newest % 2 ^ 16) (newer : newest < m) (near : m < newest + 2 ^ 15) :
    receiver.frame sinks (m % 2 ^ 16) isHaptics (content m) =
      ({ receiver with frameIndexPrev := m % 2 ^ 16 }, [frameCall isHaptics content m]) := by
  have isNewer : seqNum16Gt (m % 2 ^ 16) receiver.frameIndexPrev = true := by
    rw [prev, seqNum16Gt, seqNumGt_iff (by simp) (Nat.mod_lt _ (by simp)) (Nat.mod_lt _ (by simp)),
      Newest.before_iff_lt (by simp) (by omega) (by omega)]
    exact newer
  cases isHaptics with
  | true => simp_all [frame, frameCall, AudioSinks.Has]
  | false => simp_all [frame, frameCall, AudioSinks.Has]

end AudioReceiver

namespace AudioPacket

variable (a : AudioPacket isHaptics content)

/-- The frame in unit `i`. -/
def frameOf (i : Nat) : Nat :=
  if i < a.packet.audioSourceUnitsCount then a.position + i
  else a.position - a.packet.audioFecUnitsCount + (i - a.packet.audioSourceUnitsCount)

theorem sourceUnits_lt : a.packet.audioSourceUnitsCount < 16 := Nat.mod_lt _ (by simp)
theorem fecUnits_lt : a.packet.audioFecUnitsCount < 16 := Nat.mod_lt _ (by simp)

theorem length_frames : a.frames.length = a.packet.audioSourceUnitsCount + a.packet.audioFecUnitsCount := by
  simp [frames, TakionAVPacket.audioFrames]

theorem frames_eq : a.frames =
    (List.range (a.packet.audioSourceUnitsCount + a.packet.audioFecUnitsCount)).map a.frameOf := by
  apply List.ext_getElem?
  intro i
  rw [frames, TakionAVPacket.audioFrames]
  by_cases source : i < a.packet.audioSourceUnitsCount
  · rw [List.getElem?_append_left (by simpa using source), List.getElem?_map,
      List.getElem?_range (by omega), List.getElem?_range' source]
    simp [frameOf, source]
  · rw [List.getElem?_append_right (by simpa using source)]
    by_cases inside : i < a.packet.audioSourceUnitsCount + a.packet.audioFecUnitsCount
    · rw [List.length_range', List.getElem?_range' (by omega), List.getElem?_map, List.getElem?_range inside]
      simp [frameOf, source]
    · rw [List.getElem?_eq_none (by simp; omega), List.getElem?_eq_none (by simp; omega)]

private theorem block_of_flatten {blocks : List Bytes} {size i : Nat} (sized : ∀ block ∈ blocks, block.length = size)
    (hi : i < blocks.length) : (blocks.flatten.drop (size * i)).take size = blocks[i] := by
  induction blocks generalizing i with
  | nil => cases hi
  | cons block blocks ih =>
      obtain ⟨length, sized⟩ := List.forall_mem_cons.mp sized
      cases i with
      | zero => simp [← length]
      | succ i =>
          have skip : size * (i + 1) = block.length + size * i := by rw [length, Nat.mul_succ, Nat.add_comm]
          rw [List.flatten_cons, skip, ← List.drop_drop, List.drop_left, ih sized (Nat.lt_of_succ_lt_succ hi),
            List.getElem_cons_succ]

theorem unit_data {i : Nat} (hi : i < a.packet.audioSourceUnitsCount + a.packet.audioFecUnitsCount) :
    (a.packet.data.drop (a.packet.audioUnitSize * i)).take a.packet.audioUnitSize = content (a.frameOf i) := by
  have sized : ∀ block ∈ a.frames.map content, block.length = a.packet.audioUnitSize := by
    intro block member
    obtain ⟨m, carried, rfl⟩ := List.mem_map.mp member
    exact a.sized m carried
  have inside : i < (a.frames.map content).length := by rwa [List.length_map, length_frames]
  rw [a.data_eq, ← frames, block_of_flatten sized inside, List.getElem_map]
  simp [frames_eq]

theorem length_data : a.packet.data.length = a.packet.audioUnitSize * a.packet.unitsInFrameTotal := by
  have sized : (a.frames.map content).map List.length = List.replicate a.frames.length a.packet.audioUnitSize := by
    rw [List.map_map, List.eq_replicate_iff]
    refine ⟨List.length_map _, fun length member => ?_⟩
    obtain ⟨m, carried, rfl⟩ := List.mem_map.mp member
    exact a.sized m carried
  rw [a.data_eq, ← frames, List.length_flatten, sized, length_frames, ← a.total_eq, List.sum_replicate_nat,
    Nat.add_comm, Nat.mul_comm]

theorem total_pos : 0 < a.packet.audioSourceUnitsCount + a.packet.audioFecUnitsCount := by
  rw [← length_frames, List.length_pos_iff]
  intro none_
  apply a.nonempty
  rw [a.data_eq, ← frames, none_]
  rfl

theorem mem_frames {m : Nat} (member : m ∈ a.frames) : a.position ≤ m + 15 ∧ m < a.position + 15 := by
  have sources := a.sourceUnits_lt
  have fecs := a.fecUnits_lt
  simp only [frames, TakionAVPacket.audioFrames, List.mem_append, List.mem_range'_1] at member
  omega

end AudioPacket

namespace AudioReceiver

variable {sinks : AudioSinks} {receiver : AudioReceiver} {last newest : Nat} (a : AudioPacket isHaptics content)

/-! ## One packet -/

/-- A unit is decided on by its frame; only a unit of frame 0 is passed over without a look. -/
theorem unit_cases (startup : receiver.frameIndexStartup = true → a.position < 2 ^ 16) {i : Nat}
    (hi : i < a.packet.audioSourceUnitsCount + a.packet.audioFecUnitsCount) :
    receiver.unit sinks a.packet i =
        receiver.frame sinks (a.frameOf i % 2 ^ 16) isHaptics (content (a.frameOf i)) ∨
      (a.frameOf i = 0 ∧ receiver.unit sinks a.packet i = (receiver, [])) := by
  have repeats := a.repeats
  have fecs := a.fecUnits_lt
  unfold unit
  rw [a.unit_data hi, a.isHaptics_eq, a.frameIndex_eq]
  by_cases source : i < a.packet.audioSourceUnitsCount
  · rw [if_pos source]
    left
    rw [AudioPacket.frameOf, if_pos source, Nat.mod_add_mod]
  · rw [if_neg source]
    have frameOf : a.frameOf i = a.position - a.packet.audioFecUnitsCount + (i - a.packet.audioSourceUnitsCount) :=
      if_neg source
    simp only [Bool.and_eq_true, decide_eq_true_eq]
    split
    · rename_i skipped
      have early := startup skipped.1
      rw [Nat.mod_eq_of_lt early] at skipped
      right
      exact ⟨by omega, rfl⟩
    · left
      have index : (a.position % 2 ^ 16 + 2 ^ 16 - a.packet.audioFecUnitsCount +
          (i - a.packet.audioSourceUnitsCount)) % 2 ^ 16 = a.frameOf i % 2 ^ 16 := by
        rw [frameOf]
        omega
      rw [index]

theorem units_eq (has : sinks.Has isHaptics) (startup : receiver.frameIndexStartup = true → a.position < 2 ^ 16)
    (prev : receiver.frameIndexPrev = newest % 2 ^ 16) {is : List Nat}
    (inside : ∀ i ∈ is, i < a.packet.audioSourceUnitsCount + a.packet.audioFecUnitsCount)
    (near : Newest.Near (2 ^ 15) newest (is.map a.frameOf)) :
    receiver.units sinks a.packet is =
      ({ receiver with frameIndexPrev := Newest.after newest (is.map a.frameOf) % 2 ^ 16 },
        (Newest.pass newest (is.map a.frameOf)).map (frameCall isHaptics content)) := by
  induction is generalizing receiver newest with
  | nil =>
      rw [List.map_nil, Newest.after_nil, ← prev]
      rfl
  | cons i is ih =>
      obtain ⟨hi, inside⟩ := List.forall_mem_cons.mp inside
      obtain ⟨now, later⟩ := near
      rw [List.map_cons, Newest.pass, Newest.after_cons, units]
      by_cases newer : newest < a.frameOf i
      · have taken : receiver.unit sinks a.packet i =
            ({ receiver with frameIndexPrev := a.frameOf i % 2 ^ 16 }, [frameCall isHaptics content (a.frameOf i)]) := by
          rcases unit_cases a startup hi with looked | ⟨zero, -⟩
          · rw [looked, frame_new has prev newer now.1]
          · omega
        rw [Nat.max_eq_right (Nat.le_of_lt newer)] at later ⊢
        have rest := @ih { receiver with frameIndexPrev := a.frameOf i % 2 ^ 16 } _ startup rfl inside later
        simp only [taken, if_pos newer, rest]
        rfl
      · have older := Nat.le_of_not_lt newer
        have passed : receiver.unit sinks a.packet i = (receiver, []) := by
          rcases unit_cases a startup hi with looked | ⟨-, skipped⟩
          · rw [looked, frame_old _ prev older now.2]
          · exact skipped
        rw [Nat.max_eq_left older] at later ⊢
        simp only [passed, if_neg newer, ih startup prev inside later]
        rfl

theorem near_frames (behind : newest < a.position + 15) (close : a.position ≤ newest + 16) :
    Newest.Near (2 ^ 15) newest a.frames := by
  apply Newest.near_of_window (a.position - 16) (a.position + 14)
  · omega
  · omega
  · omega
  · intro m member
    have := a.mem_frames member
    omega

/-- The state in which the units of a packet are looked at. -/
private def passStartup (receiver : AudioReceiver) (packet : TakionAVPacket) : AudioReceiver :=
  { receiver with frameIndexStartup := receiver.frameIndexStartup && !decide (packet.frameIndex > 2 ^ 15) }

private theorem avPacket_checked (a : AudioPacket isHaptics content) : receiver.avPacket sinks a.packet =
    let done := (receiver.passStartup a.packet).units sinks a.packet
      (List.range (a.packet.audioSourceUnitsCount + a.packet.audioFecUnitsCount))
    ({ done.1 with packetStats := done.1.packetStats.map fun stats => stats.pushSeq a.packet.frameIndex }, done.2) := by
  have data_ne : a.packet.dataSize ≠ 0 := fun empty => a.nonempty (List.eq_nil_of_length_eq_zero empty)
  have size : ¬ a.packet.dataSize ≠ a.packet.audioUnitSize * a.packet.unitsInFrameTotal := not_not.mpr a.length_data
  rw [avPacket, if_neg (not_not.mpr a.codec_eq), if_neg data_ne, if_neg (not_not.mpr a.total_eq), if_neg size]
  rfl

theorem avPacket_eq (has : sinks.Has isHaptics) (here : receiver.At last newest) (later : last < a.position)
    (close : a.position ≤ newest + 16) :
    ∃ receiver', receiver.avPacket sinks a.packet =
        (receiver', (Newest.pass newest a.frames).map (frameCall isHaptics content)) ∧
      receiver'.At a.position (Newest.after newest a.frames) := by
  obtain ⟨prev, newest_lt, startup⟩ := here
  have early : receiver.frameIndexStartup = true → a.packet.frameIndex = a.position ∧ a.position < 2 ^ 16 := by
    intro starting
    have := startup starting
    rw [a.frameIndex_eq]
    omega
  have near := near_frames a (Nat.lt_trans newest_lt (Nat.add_lt_add_right later 15)) close
  rw [a.frames_eq] at near
  have done := @units_eq _ _ _ (receiver.passStartup a.packet) _ a has
    (fun starting => (early (Bool.and_eq_true_iff.mp starting).1).2) prev _ (fun i => List.mem_range.mp) near
  rw [← a.frames_eq] at done
  rw [avPacket_checked, done]
  refine ⟨_, rfl, rfl, ?_, ?_⟩
  · apply Nat.lt_of_le_of_lt (Newest.after_le (q := a.position + 14) (by omega) _) (by omega)
    intro m member
    have := a.mem_frames member
    omega
  · intro still
    obtain ⟨starting, small⟩ := Bool.and_eq_true_iff.mp still
    rw [(early starting).1] at small
    simpa using small

/-! ## A run -/

/-- Packets in order, none further ahead of the newest frame than a packet reaches back. -/
private def Continues (s : Nat × Nat) (packets : List (AudioPacket isHaptics content)) : Prop :=
  Follows (fun s a => (a.position, Newest.after s.2 a.frames))
    (fun s a => s.1 < a.position ∧ a.position ≤ s.2 + 16) s packets

private theorem continues {packets : List (AudioPacket isHaptics content)}
    (inOrder : (last :: packets.map AudioPacket.position).IsChain (· < ·)) (carried : Carried newest packets) :
    Continues (last, newest) packets := by
  induction packets generalizing last newest with
  | nil => trivial
  | cons a packets ih =>
      obtain ⟨later, inOrder⟩ := List.isChain_cons_cons.mp inOrder
      have after_cons : newestFrame newest (a :: packets) = newestFrame (Newest.after newest a.frames) packets := by
        rw [newestFrame, audioFrames, List.flatMap_cons, Newest.after_append]
        rfl
      refine ⟨⟨later, ?_⟩, ih inOrder ?_⟩
      · by_cases grows : newest < newestFrame newest (a :: packets)
        · -- some packet from here on carries the next frame
          obtain ⟨b, member, next⟩ := carried (newest + 1) (Nat.lt_succ_self newest) grows
          have reach := b.mem_frames next
          have order : a.position ≤ b.position := by
            rcases List.mem_cons.mp member with rfl | member
            · exact Nat.le_refl _
            · have pairwise := List.isChain_iff_pairwise.mp inOrder
              exact Nat.le_of_lt (List.rel_of_pairwise_cons pairwise (List.mem_map_of_mem member))
          omega
        · have nonempty : 0 < a.frames.length := by
            rw [a.length_frames]
            exact a.total_pos
          have first := List.getElem_mem nonempty
          have old : a.frames[0] ≤ newest := by
            have upTo : a.frames[0] ≤ newestFrame newest (a :: packets) := by
              rw [after_cons]
              exact Nat.le_trans (Newest.le_after_of_mem first) (Newest.le_after _ _)
            exact Nat.le_trans upTo (Nat.le_of_not_lt grows)
          have reach := a.mem_frames first
          omega
      · intro m above upTo
        rw [← after_cons] at upTo
        obtain ⟨b, member, inside⟩ := carried m (Nat.lt_of_le_of_lt (Newest.le_after _ _) above) upTo
        rcases List.mem_cons.mp member with rfl | member
        · exact absurd (Newest.le_after_of_mem inside) (Nat.not_le.mpr above)
        · exact ⟨b, member, inside⟩

private theorem avPackets_eq (has : sinks.Has isHaptics) {packets : List (AudioPacket isHaptics content)}
    (here : receiver.At last newest) (continues : Continues (last, newest) packets) :
    (receiver.avPackets sinks (packets.map AudioPacket.packet)).2 =
        (Newest.pass newest (audioFrames packets)).map (frameCall isHaptics content) ∧
      Newest.Near (2 ^ 15) newest (audioFrames packets) := by
  induction packets generalizing receiver last newest with
  | nil => exact ⟨rfl, trivial⟩
  | cons a packets ih =>
      obtain ⟨⟨later, close⟩, continues⟩ := continues
      have near := near_frames a (Nat.lt_trans here.newest_lt (Nat.add_lt_add_right later 15)) close
      obtain ⟨receiver', taken, here⟩ := avPacket_eq a has here later close
      obtain ⟨rest, nears⟩ := ih here continues
      rw [audioFrames, List.flatMap_cons, Newest.pass_append, List.map_append]
      refine ⟨?_, follows_append.mpr ⟨near, nears⟩⟩
      rw [List.map_cons, avPackets, taken]
      exact congrArg _ rest

/-- A packet jumps over a frame exactly when it starts beyond the one that is due. -/
private theorem gapless_frames (newest : Nat) (a : AudioPacket isHaptics content) :
    Newest.Gapless newest a.frames ↔ a.first ≤ newest + 1 := by
  have total := a.total_pos
  rw [AudioPacket.frames, TakionAVPacket.audioFrames, Newest.Gapless, follows_append, AudioPacket.first]
  by_cases sources : a.packet.audioSourceUnitsCount = 0
  · rw [if_pos sources, sources, List.range'_zero]
    exact (and_iff_right trivial).trans (Newest.gapless_range' (by omega))
  · rw [if_neg sources]
    refine (and_iff_left ?_).trans (Newest.gapless_range' (Nat.pos_of_ne_zero sources))
    -- the frames in the FEC units are older than the first source frame
    apply Newest.gapless_old
    intro m member
    have own : a.position ∈ List.range' a.position a.packet.audioSourceUnitsCount := by simp; omega
    have newer := Newest.le_after_of_mem (p := newest) own
    have repeats := a.repeats
    rw [List.mem_range'_1] at member
    exact Nat.le_trans (by omega) newer

/-- In a run of packets in order that carry every frame, each frame is delivered exactly when it is due at the
packet that carries it first. The order is always right. -/
theorem deliversOnce_iff {packets : List (AudioPacket isHaptics content)} (has : sinks.Has isHaptics)
    (here : receiver.At last newest) (inOrder : (last :: packets.map AudioPacket.position).IsChain (· < ·))
    (carried : Carried newest packets) :
    receiver.DeliversOnce sinks newest packets ↔ StartsDue newest packets := by
  obtain ⟨delivered, near⟩ := avPackets_eq has here (continues inOrder carried)
  have due : StartsDue newest packets ↔ Newest.Gapless newest (audioFrames packets) :=
    ((follows_flatMap AudioPacket.frames).trans (follows_congr gapless_frames)).symm
  have steps := near.pass_steps
  rw [due, ← Newest.pass_eq_iff]
  constructor
  · rintro ⟨once, -⟩
    rw [delivered] at once
    have indices := congrArg (List.map SinkFrame.frameIndex) once
    rw [List.map_map, List.map_map] at indices
    exact Newest.eq_of_map_mod (steps.imp fun i j h => ⟨h.1, Nat.lt_of_lt_of_le h.2 (by omega)⟩)
      (Newest.range'_steps (by simp) newest _) indices
  · intro all
    refine ⟨by rw [delivered, all]; rfl, ?_⟩
    rw [delivered, List.map_map, here.prev]
    apply List.isChain_cons_map_of_isChain_cons (· % 2 ^ 16) _ steps
    rintro i j ⟨less, close⟩
    exact (Newest.before_iff_lt (by simp) (by omega) (by omega)).mpr less

/-- A stream of one byte for each frame. -/
def oneByteFrame (m : Nat) : Bytes := [UInt8.ofNat m]

/-- A packet with one source unit and the two frames before it in FEC units. -/
def repeatingAVPacket (position : Nat) : TakionAVPacket :=
  { TakionAVPacket.ofVideoUnit 0 3 0x121 [UInt8.ofNat position, UInt8.ofNat (position - 2),
      UInt8.ofNat (position - 2 + 1)] (by simp) with
    isVideo := false
    frameIndex := position % 2 ^ 16
    codec := 5 }

theorem repeatingAVPacket_fecUnits (position : Nat) : (repeatingAVPacket position).audioFecUnitsCount = 2 := by
  simp [TakionAVPacket.audioFecUnitsCount, repeatingAVPacket, TakionAVPacket.ofVideoUnit]

theorem repeatingAVPacket_sourceUnits (position : Nat) : (repeatingAVPacket position).audioSourceUnitsCount = 1 := by
  simp [TakionAVPacket.audioSourceUnitsCount, repeatingAVPacket, TakionAVPacket.ofVideoUnit]

theorem repeatingAVPacket_unitSize (position : Nat) : (repeatingAVPacket position).audioUnitSize = 1 := by
  simp [TakionAVPacket.audioUnitSize, repeatingAVPacket, TakionAVPacket.ofVideoUnit]

def repeatingPacket (position : Nat) (repeats : 2 ≤ position) : AudioPacket false oneByteFrame where
  position := position
  packet := repeatingAVPacket position
  isHaptics_eq := rfl
  frameIndex_eq := rfl
  codec_eq := rfl
  total_eq := by rw [repeatingAVPacket_fecUnits, repeatingAVPacket_sourceUnits]; rfl
  repeats := by rwa [repeatingAVPacket_fecUnits]
  sized := fun _ _ => (repeatingAVPacket_unitSize position).symm
  nonempty := List.cons_ne_nil _ _
  data_eq := by
    rw [TakionAVPacket.audioFrames, repeatingAVPacket_fecUnits, repeatingAVPacket_sourceUnits]
    rfl

theorem carried_upTo_eleven {packets : List (AudioPacket false oneByteFrame)} (newest : newestFrame 9 packets = 11)
    (ten : ∃ a ∈ packets, 10 ∈ a.frames) (eleven : ∃ a ∈ packets, 11 ∈ a.frames) : Carried 9 packets := by
  intro m above upTo
  rw [newest] at upTo
  obtain rfl | rfl : m = 10 ∨ m = 11 := by omega
  · exact ten
  · exact eleven

theorem deliversOnce_two : (⟨9, false, none⟩ : AudioReceiver).DeliversOnce ⟨true, false⟩ 9
    [repeatingPacket 10 (by decide), repeatingPacket 11 (by decide)] := by
  have has : AudioSinks.Has ⟨true, false⟩ false := rfl
  have here : (⟨9, false, none⟩ : AudioReceiver).At 9 9 := ⟨rfl, by decide, by simp⟩
  have carried : Carried 9 [repeatingPacket 10 (by decide), repeatingPacket 11 (by decide)] :=
    carried_upTo_eleven rfl ⟨_, List.mem_cons_self, by decide⟩ ⟨_, List.mem_cons_of_mem _ List.mem_cons_self, by decide⟩
  exact (deliversOnce_iff has here (by decide) carried).mpr ⟨by decide, by decide, trivial⟩

/-- Packet 10 is lost. Its frame is in packet 11, after frame 11. -/
theorem not_deliversOnce_lost :
    AudioSinks.Has ⟨true, false⟩ false ∧ (⟨9, false, none⟩ : AudioReceiver).At 9 9 ∧
      [9, (repeatingPacket 11 (by decide)).position].IsChain (· < ·) ∧
      Carried 9 [repeatingPacket 11 (by decide)] ∧
      ¬ (⟨9, false, none⟩ : AudioReceiver).DeliversOnce ⟨true, false⟩ 9 [repeatingPacket 11 (by decide)] := by
  refine ⟨rfl, ⟨rfl, by decide, by simp⟩, by decide, ?_, ?_⟩
  · exact carried_upTo_eleven rfl ⟨_, List.mem_cons_self, by decide⟩ ⟨_, List.mem_cons_self, by decide⟩
  · intro delivers
    have lengths := congrArg List.length delivers.once
    revert lengths
    decide +kernel

end AudioReceiver

end Chiaki
