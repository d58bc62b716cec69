import Chiaki.Audio.Sender

/-!
# The layout of microphone packets

Every packet is well formed and carries its frame as the source unit. Its FEC units are each one frame newer than
the receiver takes them for.
-/

namespace Chiaki
open Memory Machine

namespace AudioSender

/-! ## One packet -/

/-- A packet with the frame index before it is counted up. -/
def micPacket (ps5 : Bool) (frameIndex : Nat) (units : Bytes) : Bytes :=
  (packetFields ps5 frameIndex units).flatMap Prod.snd

theorem length_micPacket (ps5 : Bool) (frameIndex : Nat) (units : Bytes) :
    (micPacket ps5 frameIndex units).length = units.length + 19 + ps5.toNat := by
  cases ps5 <;> simp [micPacket, packetFields] <;> omega

theorem packetFields_adjacent (ps5 : Bool) (frameIndex : Nat) (units : Bytes) :
    Adjacent 0 (packetFields ps5 frameIndex units) := by
  cases ps5 <;> simp [packetFields, Adjacent]

def micParse (ps5 : Bool) (keyState : KeyState) (frameIndex : Nat) : AVParse where
  packetIndex := frameIndex % 2 ^ 16
  frameIndex := (frameIndex + 1) % 2 ^ 16
  usesNaluInfoStructs := false
  isVideo := false
  isHaptics := false
  unitIndex := 0
  unitsInFrameTotal := unitsInFrameTotal
  unitsInFrameFec := unitsInFrameFecRaw
  codec := 5
  wordAt0x18 := 0
  adaptiveStreamIndex := 0
  byteAt0x2c := 0
  keyPos := (keyState.requestCommit 0).2
  dataOffset := 19 + ps5.toNat
  dataSize := frameBufSize

section Parse
variable (ps5 : Bool) (keyState : KeyState) (frameIndex : Nat) {units : Bytes} (length : units.length = frameBufSize)
include length

theorem micPacket_numbers :
    read16 (micPacket ps5 frameIndex units) 1 = .ok (frameIndex % 2 ^ 16) ∧
      read16 (micPacket ps5 frameIndex units) 3 = .ok ((frameIndex + 1) % 2 ^ 16) ∧
      read32 (micPacket ps5 frameIndex units) 5 = .ok unitsNumber ∧
      read32 (micPacket ps5 frameIndex units) 0xe = .ok 0 := by
  have size := length_micPacket ps5 frameIndex units
  rw [length, frameBufSize, bufSizePerUnit] at size
  have packetIndex : ((micPacket ps5 frameIndex units).drop 1).take 2 = htons frameIndex := by cases ps5 <;> rfl
  have nextIndex : ((micPacket ps5 frameIndex units).drop 3).take 2 = htons (frameIndex + 1) := by cases ps5 <;> rfl
  have number : ((micPacket ps5 frameIndex units).drop 5).take 4 = htonl unitsNumber := by cases ps5 <;> rfl
  have keyPos : ((micPacket ps5 frameIndex units).drop 0xe).take 4 = htonl 0 := by cases ps5 <;> rfl
  rw [read16_eq (by omega), read16_eq (by omega), read32_eq (by omega), read32_eq (by omega), packetIndex, nextIndex,
    number, keyPos, ntoh_htons, ntoh_htons, ntoh_htonl, ntoh_htonl]
  exact ⟨rfl, rfl, by decide +kernel, rfl⟩

theorem avPacketBody_mic : avPacketBody ps5 keyState (micPacket ps5 frameIndex units) false false =
    .ok ((keyState.requestCommit 0).1, micParse ps5 keyState frameIndex) := by
  obtain ⟨packetIndex, nextIndex, number, keyPos⟩ := micPacket_numbers ps5 frameIndex length
  have codec : byteAt (micPacket ps5 frameIndex units) 9 = .ok 5 := by cases ps5 <;> rfl
  have unknown : byteAt (micPacket ps5 frameIndex units) 0x12 = .ok 0 := by cases ps5 <;> rfl
  have size := length_micPacket ps5 frameIndex units
  rw [length] at size
  rw [avPacketBody, packetIndex, ok_bind, nextIndex, ok_bind, number, ok_bind, codec, ok_bind, keyPos, ok_bind,
    unknown, ok_bind, size]
  cases ps5 <;> rfl

theorem avPacketParse_mic : avPacketParse ps5 keyState (micPacket ps5 frameIndex units) =
    .ok ((keyState.requestCommit 0).1, .ok (micParse ps5 keyState frameIndex)) := by
  have body := avPacketBody_mic ps5 keyState frameIndex length
  have size := length_micPacket ps5 frameIndex units
  have first : (micPacket ps5 frameIndex units).head? = some TakionPacketType.audio.value := by cases ps5 <;> rfl
  rw [length] at size
  generalize micPacket ps5 frameIndex units = buf at body size first ⊢
  cases buf with
  | nil => cases first
  | cons b rest =>
      obtain rfl : b = TakionPacketType.audio.value := Option.some.inj first
      have video : isVideoByte TakionPacketType.audio.value = false := by decide
      have audio : isAudioByte TakionPacketType.audio.value = true := by decide
      have nalu : usesNaluByte TakionPacketType.audio.value = false := by decide
      have enough : ¬ (TakionPacketType.audio.value :: rest).length - 1 < avHeaderSize ps5 false + 1 := by
        rw [size]
        cases ps5 <;> decide
      rw [avPacketParse]
      simp only [video, audio, nalu, Bool.not_false, Bool.not_true, Bool.and_false, Bool.false_eq_true, if_false,
        if_neg enough, body]
      rfl

/-- What the receiver sees of a packet. -/
structure SeesMic (packet : TakionAVPacket) (frameIndex : Nat) (units : Bytes) : Prop where
  frameIndex_eq : packet.frameIndex = (frameIndex + 1) % 2 ^ 16
  codec_eq : packet.codec = 5
  total_eq : packet.unitsInFrameTotal = 3
  source_eq : packet.audioSourceUnitsCount = 1
  fec_eq : packet.audioFecUnitsCount = 2
  size_eq : packet.audioUnitSize = 40
  data_eq : packet.data = units

theorem seesMic {packet : TakionAVPacket} (parses : Parses ps5 (micPacket ps5 frameIndex units) packet) :
    SeesMic packet frameIndex units := by
  obtain ⟨short, keyState, keyState', parsed, done, rfl⟩ := parses
  rw [avPacketParse_mic ps5 keyState frameIndex length] at done
  obtain ⟨-, same⟩ := Prod.mk.inj (Except.ok.inj done)
  obtain rfl := Except.ok.inj same
  have behind : (micPacket ps5 frameIndex units).drop (19 + ps5.toNat) = units := by
    cases ps5 <;> simp [micPacket, packetFields, htons, htonl]
  have counts : unitsInFrameFecRaw % 2 ^ 4 = 1 ∧ unitsInFrameFecRaw / 2 ^ 4 % 2 ^ 4 = 2 ∧
    unitsInFrameFecRaw / 2 ^ 8 % 2 ^ 8 = 40 := by decide
  refine ⟨rfl, rfl, rfl, counts.1, counts.2.1, counts.2.2, ?_⟩
  change ((micPacket ps5 frameIndex units).drop (19 + ps5.toNat)).take frameBufSize = units
  rw [behind, ← length, List.take_length]

theorem parses_mic : ∃ packet, Parses ps5 (micPacket ps5 frameIndex units) packet := by
  have size := length_micPacket ps5 frameIndex units
  rw [length] at size
  have few : ps5.toNat ≤ 1 := by cases ps5 <;> decide
  have short : (micPacket ps5 frameIndex units).length < 2 ^ 16 := by
    rw [size, frameBufSize, bufSizePerUnit]
    omega
  exact ⟨_, short, .init, _, _, avPacketParse_mic ps5 .init frameIndex length, rfl⟩

end Parse

/-! ## One call -/

/-- Both frames are kept, the newer one is `last`, and `count` packets were sent. -/
structure Filled (sender : AudioSender) (ps5 : Bool) (last : Bytes) (count : Nat) : Prop where
  ps5_eq : sender.ps5 = ps5
  framea_eq : sender.framea = some last
  frameb_eq : ∃ older, sender.frameb = some older ∧ older.length = bufSizePerUnit
  last_length : last.length = bufSizePerUnit
  frameBuf_length : sender.frameBuf.length = frameBufSize
  filled_length : sender.filledPacketBuf.length = frameBufSize + 20
  frameIndex_eq : sender.frameIndex = count % 2 ^ 16

theorem nextFrameIndex_eq (count : Nat) : nextFrameIndex (count % 2 ^ 16) = (count + 1) % 2 ^ 16 := by
  unfold nextFrameIndex
  split <;> omega

/-- The source unit and the second FEC unit are the new frame, the first FEC unit is the one before. -/
theorem frameBuf_filled {buf older last opus : Bytes} (size : buf.length = frameBufSize)
    (older_size : older.length = bufSizePerUnit) (last_size : last.length = bufSizePerUnit)
    (opus_size : opus.length = bufSizePerUnit) :
    (do
      let buf ← setField buf 0 older
      let buf ← setField buf bufSizePerUnit last
      let buf ← setField buf (2 * bufSizePerUnit) opus
      setField buf 0 opus) = .ok (opus ++ last ++ opus) := by
  rw [frameBufSize] at size
  have set₁ : setField buf 0 older = .ok (older ++ buf.drop older.length) := by
    have written := write_behind [] buf older (by omega)
    rw [List.nil_append, List.length_nil, List.nil_append] at written
    rw [setField, written, inBounds_some]
  have set₂ : setField (older ++ buf.drop older.length) bufSizePerUnit last =
      .ok (older ++ last ++ (buf.drop older.length).drop last.length) := by
    rw [setField, ← older_size, write_behind _ _ _ (by rw [List.length_drop]; omega), inBounds_some]
  have set₃ : setField (older ++ last ++ (buf.drop older.length).drop last.length) (2 * bufSizePerUnit) opus =
      .ok (older ++ last ++ opus) := by
    have offset : 2 * bufSizePerUnit = (older ++ last).length := by
      rw [List.length_append]
      omega
    have rest : ((buf.drop older.length).drop last.length).drop opus.length = [] := by
      apply List.drop_eq_nil_of_le
      rw [List.length_drop, List.length_drop]
      omega
    rw [setField, offset, write_behind _ _ _ (by rw [List.length_drop, List.length_drop]; omega), inBounds_some, rest,
      List.append_nil]
  have set₄ : setField (older ++ last ++ opus) 0 opus = .ok (opus ++ last ++ opus) := by
    have written := write_behind [] (older ++ (last ++ opus)) opus (by rw [List.length_append]; omega)
    rw [List.nil_append, List.length_nil, List.nil_append, opus_size, ← older_size, List.drop_left] at written
    rw [setField, List.append_assoc, written, inBounds_some, List.append_assoc]
  rw [set₁, ok_bind, set₂, ok_bind, set₃, ok_bind, set₄]

theorem setField_whole {old new : Bytes} (same : old.length = new.length) : setField old 0 new = .ok new := by
  have written := write_behind [] old new same.ge
  rw [List.nil_append, List.length_nil, ← same, List.drop_length, List.nil_append, List.append_nil] at written
  rw [setField, written, inBounds_some]

section Call
variable {sender : AudioSender} {ps5 : Bool} {last : Bytes} {count : Nat} (h : Filled sender ps5 last count)
include h

theorem Filled.sends {call : OpusCall} (size : call.opus.length = bufSizePerUnit) :
    ∃ sender', sender.opusData call =
        .ok (sender', some (micPacket ps5 (count % 2 ^ 16) (call.opus ++ last ++ call.opus))) ∧
      Filled sender' ps5 call.opus (count + 1) := by
  obtain ⟨older, olderHere, older_size⟩ := h.frameb_eq
  have units := frameBuf_filled h.frameBuf_length older_size h.last_length size
  have three : (call.opus ++ last ++ call.opus).length = frameBufSize := by
    rw [List.length_append, List.length_append, size, h.last_length]
    rfl
  have packet_length := length_micPacket ps5 (count % 2 ^ 16) (call.opus ++ last ++ call.opus)
  rw [three] at packet_length
  have few : ps5.toNat ≤ 1 := by cases ps5 <;> decide
  have written := @writeAll_adjacent _ (packetFields ps5 (count % 2 ^ 16) (call.opus ++ last ++ call.opus)) []
    sender.filledPacketBuf (packetFields_adjacent _ _ _) (by
      rw [← micPacket, packet_length, h.filled_length]
      omega)
  rw [← micPacket, List.nil_append, List.nil_append] at written
  have taken : (micPacket ps5 (count % 2 ^ 16) (call.opus ++ last ++ call.opus) ++
      sender.filledPacketBuf.drop (micPacket ps5 (count % 2 ^ 16) (call.opus ++ last ++ call.opus)).length).take
        (frameBufSize + 19 + ps5.toNat) = micPacket ps5 (count % 2 ^ 16) (call.opus ++ last ++ call.opus) := by
    rw [← packet_length, List.take_left]
  obtain ⟨buf₁, set₁, units⟩ := bind_eq_ok units
  obtain ⟨buf₂, set₂, units⟩ := bind_eq_ok units
  obtain ⟨buf₃, set₃, set₄⟩ := bind_eq_ok units
  rw [opusData, if_neg (not_not.mpr size), olderHere, h.framea_eq]
  simp only [set₁, ok_bind, set₂, set₃, set₄, setField_whole (h.last_length.trans size.symm),
    setField_whole (older_size.trans size.symm), h.ps5_eq, h.frameIndex_eq, written, inBounds_some, taken]
  refine ⟨_, rfl, rfl, rfl, ⟨_, rfl, size⟩, size, three, ?_, nextFrameIndex_eq count⟩
  rw [List.length_append, List.length_drop, packet_length, h.filled_length]
  omega

end Call

theorem opusData_skipped {sender : AudioSender} {call : OpusCall} (size : call.opus.length ≠ bufSizePerUnit) :
    sender.opusData call = .ok (sender, none) := if_pos size

/-- The first two frames are kept and not sent. -/
structure Filling (sender : AudioSender) (ps5 : Bool) (kept : Nat) : Prop where
  ps5_eq : sender.ps5 = ps5
  framea_eq : sender.framea = none
  frameb_eq : kept = 0 ∧ sender.frameb = none ∨
    kept = 1 ∧ ∃ older, sender.frameb = some older ∧ older.length = bufSizePerUnit
  frameBuf_length : sender.frameBuf.length = frameBufSize
  filled_length : sender.filledPacketBuf.length = frameBufSize + 20
  frameIndex_eq : sender.frameIndex = 0

theorem init_filling (ps5 : Bool) : Filling (init ps5) ps5 0 :=
  ⟨rfl, rfl, .inl ⟨rfl, rfl⟩, List.length_replicate, List.length_replicate, rfl⟩

theorem Filling.keeps {sender : AudioSender} {ps5 : Bool} {kept : Nat} (h : Filling sender ps5 kept) {call : OpusCall}
    (size : call.opus.length = bufSizePerUnit) :
    ∃ sender', sender.opusData call = .ok (sender', none) ∧
      (call.alloc = false ∧ Filling sender' ps5 kept ∨ call.alloc = true ∧ kept = 0 ∧ Filling sender' ps5 1 ∨
        call.alloc = true ∧ kept = 1 ∧ Filled sender' ps5 call.opus 0) := by
  rw [opusData, if_neg (not_not.mpr size)]
  rcases h.frameb_eq with ⟨rfl, none⟩ | ⟨rfl, older, here, older_size⟩
  · rw [none]
    refine ⟨_, rfl, ?_⟩
    cases memory : call.alloc with
    | false => exact .inl ⟨rfl, h⟩
    | true =>
        exact .inr (.inl ⟨rfl, rfl, h.ps5_eq, h.framea_eq, .inr ⟨rfl, call.opus, rfl, size⟩, h.frameBuf_length,
          h.filled_length, h.frameIndex_eq⟩)
  · rw [here, h.framea_eq]
    refine ⟨_, rfl, ?_⟩
    cases memory : call.alloc with
    | false => exact .inl ⟨rfl, h⟩
    | true =>
        exact .inr (.inr ⟨rfl, rfl, h.ps5_eq, rfl, ⟨older, by rw [if_pos rfl], older_size⟩, size, h.frameBuf_length,
          h.filled_length, h.frameIndex_eq⟩)

/-! ## Runs -/

/-- The packets for a row of frames: each carries the frame, the one before, and the frame again. -/
def micFrames (ps5 : Bool) : (last : Bytes) → (count : Nat) → List Bytes → List SentFrame
  | _, _, [] => []
  | last, count, opus :: later =>
      ⟨opus, micPacket ps5 (count % 2 ^ 16) (opus ++ last ++ opus)⟩ :: micFrames ps5 opus (count + 1) later

theorem sentBy_cons (call : OpusCall) (calls : List OpusCall) (out : Option Bytes) (outs : List (Option Bytes)) :
    sentBy (call :: calls) (out :: outs) = (out.map (⟨call.opus, ·⟩)).toList ++ sentBy calls outs := by
  cases out <;> rfl

theorem run_filled {sender : AudioSender} {ps5 : Bool} {last : Bytes} {count : Nat} (h : Filled sender ps5 last count)
    (calls : List OpusCall) :
    ∃ sender' outs, run opusData sender calls = .ok (sender', outs) ∧
      sentBy calls outs = micFrames ps5 last count (laterFrames 2 calls) := by
  induction calls generalizing sender last count with
  | nil => exact ⟨sender, [], rfl, rfl⟩
  | cons call calls ih =>
      by_cases size : call.opus.length = bufSizePerUnit
      · obtain ⟨sender₁, sent, h⟩ := h.sends size
        obtain ⟨sender', outs, done, packets⟩ := ih h
        refine ⟨sender', _ :: outs, by rw [run_cons_ok sent, done]; rfl, ?_⟩
        rw [sentBy_cons, packets, laterFrames, if_neg (not_not.mpr size), if_neg (by decide)]
        rfl
      · obtain ⟨sender', outs, done, packets⟩ := ih h
        refine ⟨sender', none :: outs, by rw [run_cons_ok (opusData_skipped size), done]; rfl, ?_⟩
        rw [sentBy_cons, packets, laterFrames, if_pos size]
        rfl

theorem run_filling {sender : AudioSender} {ps5 : Bool} {kept : Nat} (h : Filling sender ps5 kept)
    (calls : List OpusCall) :
    ∃ sender' outs last, run opusData sender calls = .ok (sender', outs) ∧ last.length = bufSizePerUnit ∧
      sentBy calls outs = micFrames ps5 last 0 (laterFrames kept calls) := by
  induction calls generalizing sender kept with
  | nil => exact ⟨sender, [], List.replicate bufSizePerUnit 0, rfl, List.length_replicate, rfl⟩
  | cons call calls ih =>
      have few : kept < 2 := by
        rcases h.frameb_eq with ⟨rfl, -⟩ | ⟨rfl, -⟩ <;> decide
      by_cases size : call.opus.length = bufSizePerUnit
      · obtain ⟨sender₁, done₁, next⟩ := h.keeps size
        rw [laterFrames, if_neg (not_not.mpr size), if_pos few]
        rcases next with ⟨memory, next⟩ | ⟨memory, rfl, next⟩ | ⟨memory, rfl, next⟩
        · obtain ⟨sender', outs, last, done, last_size, packets⟩ := ih next
          refine ⟨sender', none :: outs, last, by rw [run_cons_ok done₁, done]; rfl, last_size, ?_⟩
          rw [sentBy_cons, packets, memory]
          rfl
        · obtain ⟨sender', outs, last, done, last_size, packets⟩ := ih next
          refine ⟨sender', none :: outs, last, by rw [run_cons_ok done₁, done]; rfl, last_size, ?_⟩
          rw [sentBy_cons, packets, memory]
          rfl
        · obtain ⟨sender', outs, done, packets⟩ := run_filled next calls
          refine ⟨sender', none :: outs, call.opus, by rw [run_cons_ok done₁, done]; rfl, size, ?_⟩
          rw [sentBy_cons, packets, memory]
          rfl
      · obtain ⟨sender', outs, last, done, last_size, packets⟩ := ih h
        refine ⟨sender', none :: outs, last, by rw [run_cons_ok (opusData_skipped size), done]; rfl, last_size, ?_⟩
        rw [sentBy_cons, packets, laterFrames, if_pos size]
        rfl

theorem length_of_laterFrames {kept : Nat} {calls : List OpusCall} {opus : Bytes}
    (member : opus ∈ laterFrames kept calls) : opus.length = bufSizePerUnit := by
  induction calls generalizing kept with
  | nil => cases member
  | cons call calls ih =>
      unfold laterFrames at member
      split at member
      · exact ih member
      rename_i size
      split at member
      · exact ih member
      · rcases List.mem_cons.mp member with rfl | later
        · exact not_not.mp size
        · exact ih later

/-! ## The units of a packet -/

theorem getElem?_micFrames {ps5 : Bool} {last : Bytes} {count k : Nat} {frames : List Bytes} {s : SentFrame}
    (found : (micFrames ps5 last count frames)[k]? = some s) :
    frames[k]? = some s.opus ∧ ∃ before, (last :: frames)[k]? = some before ∧
      s.packet = micPacket ps5 ((count + k) % 2 ^ 16) (s.opus ++ before ++ s.opus) := by
  induction frames generalizing last count k with
  | nil => simp [micFrames] at found
  | cons opus later ih =>
      cases k with
      | zero =>
          obtain rfl := Option.some.inj found
          exact ⟨rfl, last, rfl, rfl⟩
      | succ k =>
          obtain ⟨here, before, there, packet⟩ := ih found
          refine ⟨here, before, there, ?_⟩
          rw [packet, Nat.add_assoc, Nat.add_comm 1]

theorem exists_micFrame {ps5 : Bool} {last : Bytes} {count k : Nat} {frames : List Bytes} {opus : Bytes}
    (found : frames[k]? = some opus) : ∃ s, (micFrames ps5 last count frames)[k]? = some s ∧ s.opus = opus := by
  induction frames generalizing last count k with
  | nil => simp at found
  | cons first later ih =>
      cases k with
      | zero =>
          obtain rfl := Option.some.inj found
          exact ⟨_, rfl, rfl⟩
      | succ k => exact ih found

section Units
variable {packet : TakionAVPacket} {frameIndex : Nat} {opus before : Bytes}
variable (sees : SeesMic packet frameIndex (opus ++ before ++ opus)) (opus_size : opus.length = bufSizePerUnit)
variable (before_size : before.length = bufSizePerUnit)
include sees opus_size

theorem SeesMic.source : (packet.sourceUnit 0).2 = opus := by
  rw [TakionAVPacket.sourceUnit, sees.data_eq, sees.size_eq, List.append_assoc]
  change List.take bufSizePerUnit (opus ++ (before ++ opus)) = opus
  rw [← opus_size, List.take_left]

include before_size

theorem SeesMic.fec_first : (packet.fecUnit 0).2 = before := by
  rw [TakionAVPacket.fecUnit, sees.data_eq, sees.size_eq, sees.source_eq, List.append_assoc]
  change List.take bufSizePerUnit (List.drop bufSizePerUnit (opus ++ (before ++ opus))) = before
  rw [← opus_size, List.drop_left, opus_size, ← before_size, List.take_left]

theorem SeesMic.fec_second : (packet.fecUnit 1).2 = opus := by
  rw [TakionAVPacket.fecUnit, sees.data_eq, sees.size_eq, sees.source_eq]
  have offset : 40 * (1 + 1) = (opus ++ before).length := by
    rw [List.length_append, opus_size, before_size]
    rfl
  dsimp only
  rw [offset, List.drop_left]
  change List.take bufSizePerUnit opus = opus
  rw [← opus_size, List.take_length]

omit opus_size before_size in
theorem SeesMic.second_index : (packet.fecUnit 1).1 = frameIndex % 2 ^ 16 := by
  rw [TakionAVPacket.fecUnit, sees.frameIndex_eq, sees.fec_eq]
  dsimp only
  omega

theorem SeesMic.receivable : packet.Receivable := by
  have size : packet.dataSize = 120 := by
    rw [TakionAVPacket.dataSize, sees.data_eq, List.length_append, List.length_append, opus_size, before_size]
    rfl
  exact ⟨sees.codec_eq, by rw [size]; decide, by rw [sees.fec_eq, sees.source_eq, sees.total_eq],
    by rw [size, sees.size_eq, sees.total_eq]⟩

end Units

section Agreement
variable {ps5 : Bool} {last : Bytes} {frames : List Bytes} (last_size : last.length = bufSizePerUnit)
variable (sizes : ∀ opus ∈ frames, opus.length = bufSizePerUnit)
include last_size sizes

theorem seesMic_at {k : Nat} {s : SentFrame} (found : (micFrames ps5 last 0 frames)[k]? = some s) :
    s.opus ∈ frames ∧ ∃ before, (last :: frames)[k]? = some before ∧ before.length = bufSizePerUnit ∧
      (∃ packet, Parses ps5 s.packet packet) ∧
      (∀ keyState, ∃ keyState' parsed, avPacketParse ps5 keyState s.packet = .ok (keyState', .ok parsed)) ∧
      ∀ packet, Parses ps5 s.packet packet → SeesMic packet (k % 2 ^ 16) (s.opus ++ before ++ s.opus) := by
  obtain ⟨here, before, there, packet_eq⟩ := getElem?_micFrames found
  rw [Nat.zero_add] at packet_eq
  have member := List.mem_of_getElem? here
  have before_size : before.length = bufSizePerUnit := by
    rcases List.mem_cons.mp (List.mem_of_getElem? there) with rfl | early
    · exact last_size
    · exact sizes before early
  have length : (s.opus ++ before ++ s.opus).length = frameBufSize := by
    rw [List.length_append, List.length_append, sizes s.opus member, before_size]
    rfl
  rw [packet_eq]
  exact ⟨member, before, there, before_size, parses_mic ps5 _ length,
    fun keyState => ⟨_, _, avPacketParse_mic ps5 keyState _ length⟩, fun packet => seesMic ps5 _ length⟩

theorem Agrees.next_eq (agrees : Agrees ps5 (micFrames ps5 last 0 frames)) {k : Nat} {opus opus' : Bytes}
    (here : frames[k]? = some opus) (next : frames[k + 1]? = some opus') : opus' = opus := by
  obtain ⟨s, found, rfl⟩ := @exists_micFrame ps5 last 0 _ _ _ here
  obtain ⟨s', found', rfl⟩ := @exists_micFrame ps5 last 0 _ _ _ next
  obtain ⟨-, before, -, -, ⟨packet, parses⟩, -, sees⟩ := seesMic_at last_size sizes found
  obtain ⟨member', before', -, before_size', ⟨packet', parses'⟩, -, sees'⟩ := seesMic_at last_size sizes found'
  have mic := sees packet parses
  have mic' := sees' packet' parses'
  have size' := sizes s'.opus member'
  have latest : LastWith ps5 (micFrames ps5 last 0 frames) (k + 1) (packet'.fecUnit 1).1 s := by
    refine ⟨k, Nat.lt_succ_self k, found, ⟨packet, parses, ?_⟩, fun j' _ _ low high => by omega⟩
    rw [mic'.second_index, mic.frameIndex_eq]
    omega
  have carried := agrees.fec (k + 1) s' packet' found' parses' 1 (by rw [mic'.fec_eq]; decide) s latest
  rwa [mic'.fec_second size' before_size'] at carried

theorem agrees_iff : Agrees ps5 (micFrames ps5 last 0 frames) ↔ ∀ opus ∈ frames, ∀ opus' ∈ frames, opus = opus' := by
  constructor
  · intro agrees
    have first (k : Nat) (opus : Bytes) (here : frames[k]? = some opus) : frames[0]? = some opus := by
      induction k generalizing opus with
      | zero => exact here
      | succ k ih =>
          have inside : k < frames.length := by
            obtain ⟨bound, -⟩ := List.getElem?_eq_some_iff.mp here
            omega
          have before := List.getElem?_eq_getElem inside
          rw [agrees.next_eq last_size sizes before here]
          exact ih _ before
    intro opus member opus' member'
    obtain ⟨k, here⟩ := List.mem_iff_getElem?.mp member
    obtain ⟨k', here'⟩ := List.mem_iff_getElem?.mp member'
    exact Option.some.inj ((first k opus here).symm.trans (first k' opus' here'))
  · intro equal
    refine ⟨fun s member => ?_, fun s member packet parses => ?_, fun s member packet parses i below => ?_, ?_⟩
    · obtain ⟨k, found⟩ := List.mem_iff_getElem?.mp member
      obtain ⟨-, -, -, -, -, parses, -⟩ := seesMic_at last_size sizes found
      exact parses
    · obtain ⟨k, found⟩ := List.mem_iff_getElem?.mp member
      obtain ⟨member, before, -, before_size, -, -, sees⟩ := seesMic_at last_size sizes found
      exact (sees packet parses).receivable (sizes _ member) before_size
    · obtain ⟨k, found⟩ := List.mem_iff_getElem?.mp member
      obtain ⟨member, before, -, -, -, -, sees⟩ := seesMic_at last_size sizes found
      have mic := sees packet parses
      obtain rfl : i = 0 := by
        rw [mic.source_eq] at below
        omega
      exact mic.source (sizes _ member)
    · rintro k s packet found parses i below s' ⟨j, earlier, found', -⟩
      obtain ⟨member, before, there, before_size, -, -, sees⟩ := seesMic_at last_size sizes found
      obtain ⟨member', -⟩ := seesMic_at last_size sizes found'
      have mic := sees packet parses
      have before_member : before ∈ frames := by
        obtain ⟨k, rfl⟩ : ∃ k', k = k' + 1 := ⟨k - 1, by omega⟩
        exact List.mem_of_getElem? there
      rw [mic.fec_eq] at below
      obtain rfl | rfl : i = 0 ∨ i = 1 := by omega
      · rw [mic.fec_first (sizes _ member) before_size]
        exact equal before before_member s'.opus member'
      · rw [mic.fec_second (sizes _ member) before_size]
        exact equal s.opus member s'.opus member'

end Agreement

/-- The FEC units carry the frames that the receiver takes them for exactly if all frames are the same. -/
theorem layoutAgrees_iff (ps5 : Bool) (calls : List OpusCall) :
    LayoutAgrees ps5 calls ↔ ∀ opus ∈ laterFrames 0 calls, ∀ opus' ∈ laterFrames 0 calls, opus = opus' := by
  obtain ⟨sender, outs, last, done, last_size, packets⟩ := run_filling (init_filling ps5) calls
  rw [← agrees_iff last_size fun _ => length_of_laterFrames, ← packets]
  constructor
  · rintro ⟨_, _, done', agrees⟩
    obtain ⟨-, rfl⟩ := Prod.mk.inj (Except.ok.inj (done.symm.trans done'))
    exact agrees
  · intro agrees
    exact ⟨sender, outs, done, agrees⟩

/-- Four different frames: the second packet has the fourth frame where the receiver expects the third. -/
def differentFrames : List OpusCall := [1, 2, 3, 4].map fun b => ⟨List.replicate 40 b, true⟩

theorem not_layoutAgrees : ¬ LayoutAgrees true differentFrames := by
  rintro ⟨_, _, done', agrees⟩
  obtain ⟨sender, outs, last, done, last_size, packets⟩ := run_filling (init_filling true) differentFrames
  obtain ⟨-, rfl⟩ := Prod.mk.inj (Except.ok.inj (done.symm.trans done'))
  rw [packets] at agrees
  have equal := (agrees_iff last_size fun _ => length_of_laterFrames).mp agrees (List.replicate 40 3)
    (by decide) (List.replicate 40 4) (by decide)
  exact absurd equal (by decide)

end AudioSender
end Chiaki
