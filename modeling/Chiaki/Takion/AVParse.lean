import Chiaki.GKCrypt.KeyState
import Chiaki.Takion.AVPacket
import Chiaki.Takion.Packet

/-!
# Parsing AV packets

The three parsers of `takion.c`. A result is described by where its data begins in the buffer and by its size,
a `size_t`. Versions 9 and 12 compare the size with a header that has no NALU info, and skip that info
nevertheless: this is safe for video, where there is a byte to spare, and not for audio.
-/

namespace Chiaki

/-- What a parser writes to a `ChiakiTakionAVPacket`. -/
structure AVParse where
  packetIndex : Nat
  frameIndex : Nat
  usesNaluInfoStructs : Bool
  isVideo : Bool
  isHaptics : Bool
  unitIndex : Nat
  unitsInFrameTotal : Nat
  unitsInFrameFec : Nat
  codec : Nat
  wordAt0x18 : Nat
  adaptiveStreamIndex : Nat
  byteAt0x2c : Nat
  keyPos : Nat
  dataOffset : Nat
  dataSize : Nat

/-- The pointer into the packet and the size that goes with it. -/
structure AVCursor where
  offset : Nat
  size : Nat

/-- Both move by `n`, the size modulo 2^64. -/
def AVCursor.skip (cursor : AVCursor) (n : Nat) : AVCursor :=
  ⟨cursor.offset + n, if n ≤ cursor.size then cursor.size - n else cursor.size + 2 ^ 64 - n⟩

def AVCursor.skipIf (cursor : AVCursor) (cond : Bool) (n : Nat) : AVCursor := if cond then cursor.skip n else cursor

/-- The index of a unit and the numbers of units and of FEC units of its frame. -/
def avUnits (isVideo : Bool) (dword : Nat) : Nat × Nat × Nat :=
  if isVideo then (dword / 2 ^ 0x15 % 2 ^ 11, dword / 2 ^ 0xa % 2 ^ 11 + 1, dword % 2 ^ 10)
  else (dword / 2 ^ 0x18 % 2 ^ 8, dword / 2 ^ 0x10 % 2 ^ 8 + 1, dword % 2 ^ 16)

/-- Two fields that only video packets have: the word and the stream index. -/
def avVideoFields (isVideo : Bool) (buf : Bytes) (offset : Nat) : Checked (Nat × Nat) :=
  if isVideo then do
    let word ← read16 buf offset
    let index ← byteAt buf (offset + 2)
    pure (word, index.toNat / 2 ^ 5)
  else pure (0, 0)

def byteIf (cond : Bool) (buf : Bytes) (offset : Nat) : Checked UInt8 :=
  if cond then byteAt buf offset else pure 0

def isVideoByte (first : UInt8) : Bool := first &&& takionPacketBaseTypeMask = TakionPacketType.video.value
def isAudioByte (first : UInt8) : Bool := first &&& takionPacketBaseTypeMask = TakionPacketType.audio.value
def usesNaluByte (first : UInt8) : Bool := (first >>> 4) &&& 1 ≠ 0

def takionV9AvHeaderSizeVideo : Nat := 0x17
def takionV9AvHeaderSizeAudio : Nat := 0x12
def takionV12AvHeaderSizeVideo : Nat := 0x17
def takionV12AvHeaderSizeAudio : Nat := 0x13
def takionV7AvHeaderSizeBase : Nat := 0x12
def takionV7AvHeaderSizeVideoAdd : Nat := 0x3
def takionV7AvHeaderSizeNaluInfoStructsAdd : Nat := 0x3

def avHeaderSize (v12 isVideo : Bool) : Nat :=
  if v12 then if isVideo then takionV12AvHeaderSizeVideo else takionV12AvHeaderSizeAudio
  else if isVideo then takionV9AvHeaderSizeVideo else takionV9AvHeaderSizeAudio

/-- `av_packet_parse` after the check of the size. `av` begins at the second byte. -/
def avPacketBody (v12 : Bool) (keyState : KeyState) (buf : Bytes) (isVideo nalu : Bool) :
    Checked (KeyState × AVParse) := do
  let packetIndex ← read16 buf 1
  let frameIndex ← read16 buf 3
  let dword ← read32 buf 5
  let codec ← byteAt buf 9
  let keyPosLow ← read32 buf 0xe
  let keyPos := keyState.requestCommit keyPosLow
  let _unknown ← byteAt buf 0x12
  let cursor := AVCursor.skip ⟨1, buf.length - 1⟩ 0x11
  let video ← avVideoFields isVideo buf cursor.offset
  let cursor := cursor.skip (if isVideo then 3 else 1)
  let byteAt0x2c ← byteIf isVideo buf cursor.offset
  let cursor := cursor.skipIf nalu 3
  let haptics ← byteIf (v12 && !isVideo) buf cursor.offset
  let cursor := cursor.skipIf (v12 && !isVideo) 1
  let units := avUnits isVideo dword
  pure (keyPos.1,
    { packetIndex := packetIndex, frameIndex := frameIndex, usesNaluInfoStructs := nalu, isVideo := isVideo,
      isHaptics := haptics = 0x02, unitIndex := units.1, unitsInFrameTotal := units.2.1,
      unitsInFrameFec := units.2.2, codec := codec.toNat, wordAt0x18 := video.1, adaptiveStreamIndex := video.2,
      byteAt0x2c := byteAt0x2c.toNat, keyPos := keyPos.2, dataOffset := cursor.offset, dataSize := cursor.size })

/-- `av_packet_parse`. -/
def avPacketParse (v12 : Bool) (keyState : KeyState) (buf : Bytes) :
    Checked (KeyState × Except ErrorCode AVParse) :=
  match buf with
  | [] => pure (keyState, .error .bufTooSmall)
  | first :: _ =>
      if !isVideoByte first && !isAudioByte first then pure (keyState, .error .invalidData)
      else if buf.length - 1 < avHeaderSize v12 (isVideoByte first) + 1 then pure (keyState, .error .bufTooSmall)
      else (avPacketBody v12 keyState buf (isVideoByte first) (usesNaluByte first)).map fun r => (r.1, .ok r.2)

/-- `chiaki_takion_v9_av_packet_parse`. -/
def takionV9AvPacketParse := avPacketParse false

/-- `chiaki_takion_v12_av_packet_parse`. -/
def takionV12AvPacketParse := avPacketParse true

def v7AvHeaderSize (isVideo nalu : Bool) : Nat :=
  takionV7AvHeaderSizeBase + (if isVideo then takionV7AvHeaderSizeVideoAdd else 0)
    + (if nalu then takionV7AvHeaderSizeNaluInfoStructsAdd else 0)

/-- `chiaki_takion_v7_av_packet_parse` after the check of the size. -/
def v7AvPacketBody (buf : Bytes) (isVideo nalu : Bool) : Checked AVParse := do
  let packetIndex ← read16 buf 1
  let frameIndex ← read16 buf 3
  let dword ← read32 buf 5
  let codec ← byteAt buf 9
  let keyPos ← read32 buf 0xe
  let cursor := AVCursor.skip ⟨0, buf.length⟩ 0x12
  let video ← avVideoFields isVideo buf cursor.offset
  let cursor := cursor.skipIf isVideo 3
  let cursor := cursor.skipIf nalu 3
  let units := avUnits true dword
  pure
    { packetIndex := packetIndex, frameIndex := frameIndex, usesNaluInfoStructs := nalu, isVideo := isVideo,
      isHaptics := false, unitIndex := units.1, unitsInFrameTotal := units.2.1, unitsInFrameFec := units.2.2,
      codec := codec.toNat, wordAt0x18 := video.1, adaptiveStreamIndex := video.2, byteAt0x2c := 0,
      keyPos := keyPos, dataOffset := cursor.offset, dataSize := cursor.size }

/-- `chiaki_takion_v7_av_packet_parse`. The key state is not used. -/
def takionV7AvPacketParse (keyState : KeyState) (buf : Bytes) : Checked (KeyState × Except ErrorCode AVParse) :=
  match buf with
  | [] => pure (keyState, .error .bufTooSmall)
  | first :: _ =>
      if !isVideoByte first && !isAudioByte first then pure (keyState, .error .invalidData)
      else if buf.length < v7AvHeaderSize (isVideoByte first) (usesNaluByte first) then
        pure (keyState, .error .bufTooSmall)
      else (v7AvPacketBody buf (isVideoByte first) (usesNaluByte first)).map fun r => (keyState, .ok r)

/-! ## Staying inside the buffer -/

/-- The data is the rest of the buffer. -/
def AVParse.Inside (packet : AVParse) (buf : Bytes) : Prop :=
  packet.dataOffset ≤ buf.length ∧ packet.dataOffset + packet.dataSize = buf.length

/-- Nothing outside the buffer is read, and the data of a packet is the rest of the buffer. -/
def ParsesInside (parse : KeyState → Bytes → Checked (KeyState × Except ErrorCode AVParse)) (keyState : KeyState)
    (buf : Bytes) : Prop :=
  ∃ keyState' result, parse keyState buf = .ok (keyState', result) ∧
    ∀ packet, result = .ok packet → packet.Inside buf

/-- An audio packet with NALU info that is too short for it by the given sizes. -/
def ShortAudio (sizes : List Nat) (buf : Bytes) : Prop :=
  ∃ first, buf.head? = some first ∧ isAudioByte first = true ∧ usesNaluByte first = true ∧ buf.length ∈ sizes

/-- The size of the cursor is that of the rest of the buffer. -/
def AVCursor.Rest (cursor : AVCursor) (buf : Bytes) : Prop := cursor.offset + cursor.size = buf.length

@[simp] theorem offset_skip (cursor : AVCursor) (n : Nat) : (cursor.skip n).offset = cursor.offset + n := rfl

theorem offset_skipIf (cursor : AVCursor) (cond : Bool) (n : Nat) :
    (cursor.skipIf cond n).offset = cursor.offset + if cond then n else 0 := by
  cases cond <;> rfl

section Buffer

variable {buf : Bytes} {cursor : AVCursor}

theorem AVCursor.Rest.skip (h : cursor.Rest buf) {n : Nat} (fits : cursor.offset + n ≤ buf.length) :
    (cursor.skip n).Rest buf := by
  unfold AVCursor.Rest at h
  have enough : n ≤ cursor.size := by omega
  rw [AVCursor.skip, if_pos enough]
  change cursor.offset + n + (cursor.size - n) = buf.length
  omega

theorem AVCursor.Rest.skipIf (h : cursor.Rest buf) {cond : Bool} {n : Nat}
    (fits : cond = true → cursor.offset + n ≤ buf.length) : (cursor.skipIf cond n).Rest buf := by
  cases cond with
  | false => exact h
  | true => exact h.skip (fits rfl)

theorem avVideoFields_ok {isVideo : Bool} (buf : Bytes) (offset : Nat) (inside : isVideo = true → offset + 3 ≤ buf.length) :
    ∃ r, avVideoFields isVideo buf offset = .ok r := by
  cases isVideo with
  | false => exact ⟨_, rfl⟩
  | true =>
      have := inside rfl
      rw [avVideoFields, if_pos rfl, read16_eq (by omega), byteAt_eq (by omega)]
      exact ⟨_, rfl⟩

theorem byteIf_ok {cond : Bool} (buf : Bytes) (offset : Nat) (inside : cond = true → offset < buf.length) :
    ∃ b, byteIf cond buf offset = .ok b := by
  cases cond with
  | false => exact ⟨_, rfl⟩
  | true => exact ⟨_, byteAt_eq (inside rfl)⟩

theorem AVCursor.Rest.le (h : cursor.Rest buf) : cursor.offset ≤ buf.length := by
  unfold AVCursor.Rest at h
  omega

theorem v7AvPacketBody_ok {isVideo nalu : Bool} (fits : v7AvHeaderSize isVideo nalu ≤ buf.length) :
    ∃ packet, v7AvPacketBody buf isVideo nalu = .ok packet ∧ packet.Inside buf := by
  change 0x12 + (if isVideo then 3 else 0) + (if nalu then 3 else 0) ≤ buf.length at fits
  have base : 0x12 ≤ buf.length := by omega
  have video : isVideo = true → 0x12 + 3 ≤ buf.length := by
    rintro rfl
    rw [if_pos rfl] at fits
    omega
  have whole : AVCursor.Rest ⟨0, buf.length⟩ buf := Nat.zero_add buf.length
  have start : (AVCursor.skip ⟨0, buf.length⟩ 0x12).Rest buf := whole.skip base
  have rest : (((AVCursor.skip ⟨0, buf.length⟩ 0x12).skipIf isVideo 3).skipIf nalu 3).Rest buf := by
    refine (start.skipIf video).skipIf fun h => ?_
    rw [offset_skipIf]
    rw [if_pos h] at fits
    exact fits
  obtain ⟨fields, read⟩ := avVideoFields_ok buf 0x12 video
  rw [v7AvPacketBody, read16_eq (by omega), read16_eq (by omega), read32_eq (by omega), byteAt_eq (by omega),
    read32_eq (by omega)]
  simp only [ok_bind, offset_skip, Nat.zero_add, read]
  exact ⟨_, rfl, rest.le, rest⟩

/-- How far the parser of versions 9 and 12 goes into the buffer. -/
def avDataOffset (v12 isVideo nalu : Bool) : Nat :=
  0x12 + (if isVideo then 3 else 1) + (if nalu then 3 else 0) + if v12 && !isVideo then 1 else 0

variable {v12 isVideo nalu : Bool} {keyState : KeyState}

theorem avPacketBody_ok (checked : avHeaderSize v12 isVideo + 1 ≤ buf.length - 1)
    (fits : avDataOffset v12 isVideo nalu ≤ buf.length) :
    ∃ r, avPacketBody v12 keyState buf isVideo nalu = .ok r ∧ r.2.Inside buf := by
  have long : 0x14 ≤ buf.length := by
    have : 0x12 ≤ avHeaderSize v12 isVideo := by cases v12 <;> cases isVideo <;> decide
    omega
  have video : isVideo = true → 0x15 < buf.length := by
    rintro rfl
    have : 0x15 ≤ avHeaderSize v12 true := by cases v12 <;> decide
    omega
  unfold avDataOffset at fits
  have nonempty : 1 ≤ buf.length := by omega
  have whole : AVCursor.Rest ⟨1, buf.length - 1⟩ buf := Nat.add_sub_of_le nonempty
  have common : 1 + 0x11 ≤ buf.length := by omega
  have typed : 1 + 0x11 + (if isVideo then 3 else 1) ≤ buf.length := by omega
  have flagged : nalu = true → 1 + 0x11 + (if isVideo then 3 else 1) + 3 ≤ buf.length := by
    intro h
    rw [if_pos h] at fits
    omega
  have last : (v12 && !isVideo) = true →
      1 + 0x11 + (if isVideo then 3 else 1) + (if nalu then 3 else 0) + 1 ≤ buf.length := by
    intro h
    rw [if_pos h] at fits
    exact fits
  have rest := ((((whole.skip common).skip typed).skipIf flagged).skipIf (n := 1) (by rwa [offset_skipIf]))
  obtain ⟨fields, read⟩ := avVideoFields_ok buf (1 + 0x11) fun h : isVideo = true => by
    have := video h
    omega
  have end0x2c : isVideo = true → 1 + 0x11 + (if isVideo then 3 else 1) < buf.length := by
    rintro rfl
    exact video rfl
  obtain ⟨byte, read'⟩ := byteIf_ok buf _ end0x2c
  obtain ⟨haptics, read''⟩ := byteIf_ok buf _ last
  rw [avPacketBody, read16_eq (by omega), read16_eq (by omega), read32_eq (by omega), byteAt_eq (by omega),
    read32_eq (by omega), byteAt_eq (by omega)]
  have le := rest.le
  unfold AVCursor.Rest at rest
  simp only [offset_skip, offset_skipIf] at le rest
  simp only [ok_bind, offset_skip, offset_skipIf, read, read', read'']
  exact ⟨_, rfl, le, rest⟩

theorem dataOffset_of_avPacketBody {r : KeyState × AVParse} (h : avPacketBody v12 keyState buf isVideo nalu = .ok r) :
    r.2.dataOffset = avDataOffset v12 isVideo nalu := by
  unfold avPacketBody at h
  obtain ⟨_, -, h⟩ := bind_eq_ok h
  obtain ⟨_, -, h⟩ := bind_eq_ok h
  obtain ⟨_, -, h⟩ := bind_eq_ok h
  obtain ⟨_, -, h⟩ := bind_eq_ok h
  obtain ⟨_, -, h⟩ := bind_eq_ok h
  obtain ⟨_, -, h⟩ := bind_eq_ok h
  obtain ⟨_, -, h⟩ := bind_eq_ok h
  obtain ⟨_, -, h⟩ := bind_eq_ok h
  obtain ⟨_, -, h⟩ := bind_eq_ok h
  cases h
  simp only [offset_skip, offset_skipIf, avDataOffset]

/-- Once the size is checked, what remains to be asked is whether the data begins inside the buffer. -/
theorem avPacketBody_inside_iff (checked : avHeaderSize v12 isVideo + 1 ≤ buf.length - 1) :
    (∃ r, avPacketBody v12 keyState buf isVideo nalu = .ok r ∧ r.2.Inside buf) ↔
      avDataOffset v12 isVideo nalu ≤ buf.length := by
  constructor
  · rintro ⟨r, parsed, inside, -⟩
    rwa [dataOffset_of_avPacketBody parsed] at inside
  · exact avPacketBody_ok checked

theorem avDataOffset_le_iff (checked : avHeaderSize v12 isVideo + 1 ≤ buf.length - 1) :
    avDataOffset v12 isVideo nalu ≤ buf.length ↔
      ¬ (isVideo = false ∧ nalu = true ∧ buf.length ∈ if v12 then [0x15, 0x16] else [0x14, 0x15]) := by
  revert checked
  cases v12 <;> cases isVideo <;> cases nalu <;>
    simp [avDataOffset, avHeaderSize, takionV9AvHeaderSizeAudio, takionV9AvHeaderSizeVideo,
      takionV12AvHeaderSizeAudio, takionV12AvHeaderSizeVideo] <;> omega

end Buffer

theorem not_audio_of_video {first : UInt8} (video : isVideoByte first = true) : isAudioByte first = false := by
  have base : first &&& takionPacketBaseTypeMask = TakionPacketType.video.value := of_decide_eq_true video
  rw [isAudioByte, base]
  decide

theorem parsesInside_error {parse : KeyState → Bytes → Checked (KeyState × Except ErrorCode AVParse)}
    {keyState keyState' : KeyState} {buf : Bytes} (err : ErrorCode) (h : parse keyState buf = .ok (keyState', .error err)) :
    ParsesInside parse keyState buf := ⟨keyState', .error err, h, fun _ parsed => by cases parsed⟩

theorem parsesInside_map {parse : KeyState → Bytes → Checked (KeyState × Except ErrorCode AVParse)} {keyState : KeyState}
    {buf : Bytes} {body : Checked (KeyState × AVParse)} (h : parse keyState buf = body.map fun r => (r.1, .ok r.2)) :
    ParsesInside parse keyState buf ↔ ∃ r, body = .ok r ∧ r.2.Inside buf := by
  rw [ParsesInside, h]
  cases body with
  | error fault =>
      constructor
      · rintro ⟨_, _, parsed, -⟩
        cases parsed
      · rintro ⟨_, parsed, -⟩
        cases parsed
  | ok r =>
      constructor
      · rintro ⟨_, _, parsed, inside⟩
        cases parsed
        exact ⟨r, rfl, inside r.2 rfl⟩
      · rintro ⟨_, parsed, inside⟩
        cases parsed
        refine ⟨r.1, .ok r.2, rfl, fun packet same => ?_⟩
        cases same
        exact inside

theorem avPacketParse_inside_iff (v12 : Bool) (keyState : KeyState) (buf : Bytes) :
    ParsesInside (avPacketParse v12) keyState buf ↔
      ¬ ShortAudio (if v12 then [0x15, 0x16] else [0x14, 0x15]) buf := by
  cases buf with
  | nil =>
      refine iff_of_true (parsesInside_error .bufTooSmall rfl) ?_
      rintro ⟨_, head, -⟩
      cases head
  | cons first rest =>
      by_cases typed : (!isVideoByte first && !isAudioByte first) = true
      · refine iff_of_true (parsesInside_error .invalidData (by rw [avPacketParse, if_pos typed]; rfl)) ?_
        rintro ⟨_, head, audio, -⟩
        cases head
        simp [audio] at typed
      by_cases small : (first :: rest).length - 1 < avHeaderSize v12 (isVideoByte first) + 1
      · refine iff_of_true (parsesInside_error .bufTooSmall
          (by rw [avPacketParse, if_neg typed, if_pos small]; rfl)) ?_
        rintro ⟨_, head, audio, -, sizes⟩
        cases head
        have video : isVideoByte first = false := by
          by_contra video
          rw [not_audio_of_video (Bool.not_eq_false _ ▸ video)] at audio
          cases audio
        rw [video] at small
        cases v12 with
        | false =>
            change (first :: rest).length - 1 < 0x13 at small
            simp only [Bool.false_eq_true, if_false, List.mem_cons, List.not_mem_nil, or_false] at sizes
            omega
        | true =>
            change (first :: rest).length - 1 < 0x14 at small
            simp only [if_true, List.mem_cons, List.not_mem_nil, or_false] at sizes
            omega
      have checked := Nat.le_of_not_lt small
      rw [parsesInside_map (by rw [avPacketParse, if_neg typed, if_neg small]), avPacketBody_inside_iff checked,
        avDataOffset_le_iff checked, not_iff_not]
      constructor
      · rintro ⟨video, nalu, sizes⟩
        have audio : isAudioByte first = true := by simpa [video] using typed
        exact ⟨first, rfl, audio, nalu, sizes⟩
      · rintro ⟨_, head, audio, nalu, sizes⟩
        cases head
        refine ⟨?_, nalu, sizes⟩
        by_contra video
        rw [not_audio_of_video (Bool.not_eq_false _ ▸ video)] at audio
        cases audio

theorem takionV7AvPacketParse_inside (keyState : KeyState) (buf : Bytes) :
    ParsesInside takionV7AvPacketParse keyState buf := by
  cases buf with
  | nil => exact parsesInside_error .bufTooSmall rfl
  | cons first rest =>
      by_cases typed : (!isVideoByte first && !isAudioByte first) = true
      · exact parsesInside_error .invalidData (by rw [takionV7AvPacketParse, if_pos typed]; rfl)
      by_cases small : (first :: rest).length < v7AvHeaderSize (isVideoByte first) (usesNaluByte first)
      · exact parsesInside_error .bufTooSmall (by rw [takionV7AvPacketParse, if_neg typed, if_pos small]; rfl)
      obtain ⟨packet, parsed, inside⟩ := v7AvPacketBody_ok (Nat.le_of_not_lt small)
      refine ⟨keyState, .ok packet, ?_, fun _ same => ?_⟩
      · rw [takionV7AvPacketParse, if_neg typed, if_neg small, parsed]
        rfl
      · cases same
        exact inside

/-- The parser of version 7 is safe. Those of versions 9 and 12 are, except for audio packets with NALU info of
two sizes each. -/
theorem avPacketParse_safe_iff (keyState : KeyState) (buf : Bytes) :
    ParsesInside takionV7AvPacketParse keyState buf ∧
      (ParsesInside takionV9AvPacketParse keyState buf ↔ ¬ ShortAudio [0x14, 0x15] buf) ∧
      (ParsesInside takionV12AvPacketParse keyState buf ↔ ¬ ShortAudio [0x15, 0x16] buf) :=
  ⟨takionV7AvPacketParse_inside keyState buf, avPacketParse_inside_iff false keyState buf,
    avPacketParse_inside_iff true keyState buf⟩

/-- An audio packet with NALU info in 20 bytes. -/
def shortAudio : Bytes := 0x13 :: List.replicate 0x13 0

/-- Its data begins after its end, and its size is close to 2^64. -/
theorem not_parsesInside_shortAudio :
    ¬ ∀ (keyState : KeyState) (buf : Bytes), ParsesInside takionV7AvPacketParse keyState buf ∧
      ParsesInside takionV9AvPacketParse keyState buf ∧ ParsesInside takionV12AvPacketParse keyState buf := by
  intro inside
  obtain ⟨_, result, parsed, packet⟩ := (inside .init shortAudio).2.1
  have outside : ∃ keyState packet, takionV9AvPacketParse .init shortAudio = .ok (keyState, .ok packet) ∧
      packet.dataOffset = 0x16 ∧ packet.dataSize = 2 ^ 64 - 2 := ⟨_, _, rfl, rfl, rfl⟩
  obtain ⟨_, p, parsed', offset, -⟩ := outside
  rw [parsed] at parsed'
  cases parsed'
  have bound := (packet p rfl).1
  rw [offset] at bound
  exact absurd bound (by decide)

end Chiaki
