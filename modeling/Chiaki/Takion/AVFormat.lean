import Chiaki.Lib.LittleEndian
import Chiaki.Takion.AVParse

/-!
# Formatting the AV header of version 7

`chiaki_takion_v7_av_packet_format_header`, which only the bandwidth tests use, against the parser of the same
version. The key position is the one field that is written in the order of the host, little-endian, and read in
network order.
-/

namespace Chiaki
open Memory

/-- The three fields in one word. `units_in_frame_total - 1` is an `int`, which is masked, and a shift into its sign
bit keeps the bits. -/
def v7AvUnitsWord (packet : TakionAVPacket) : Nat :=
  (packet.unitsInFrameFec &&& 0x3ff) ||| (((packet.unitsInFrameTotal + 0x7ff) &&& 0x7ff) <<< 0xa) |||
    ((packet.unitIndex &&& 0xffff) <<< 0x15)

def v7AvFirstByte (packet : TakionAVPacket) : UInt8 :=
  let type := if packet.isVideo then TakionPacketType.video.value else TakionPacketType.audio.value
  if packet.usesNaluInfoStructs then type ||| 0x10 else type

/-- What is written, each part with its offset. -/
def v7AvHeaderFields (packet : TakionAVPacket) : List (Nat × Bytes) :=
  let cur := if packet.isVideo then 0x12 + 3 else 0x12
  [(0, [v7AvFirstByte packet]), (1, htons packet.packetIndex), (3, htons packet.frameIndex),
    (5, htonl (v7AvUnitsWord packet)), (9, [UInt8.ofNat (packet.codec &&& 0xff)]), (0xa, htonl 0),
    (0xe, LittleEndian.ofNat 4 packet.keyPos)] ++
  (if packet.isVideo then [(0x12, htons packet.wordAt0x18), (0x14, [UInt8.ofNat (packet.adaptiveStreamIndex <<< 5)])]
    else []) ++
  (if packet.usesNaluInfoStructs then [(cur, htons 0), (cur + 2, [0])] else [])

/-- `chiaki_takion_v7_av_packet_format_header`: the result, `*header_size_out` and the buffer. -/
def takionV7AvPacketFormatHeader (buf : Bytes) (packet : TakionAVPacket) : Checked (ErrorCode × Nat × Bytes) :=
  let headerSize := v7AvHeaderSize packet.isVideo packet.usesNaluInfoStructs
  if headerSize > buf.length then pure (.bufTooSmall, headerSize, buf)
  else do
    let buf ← inBounds (writeAll (v7AvHeaderFields packet) buf)
    pure (.success, headerSize, buf)

/-! ## The header -/

def v7AvHeader (packet : TakionAVPacket) : Bytes := (v7AvHeaderFields packet).flatMap Prod.snd

variable {packet : TakionAVPacket}

theorem length_v7AvHeader :
    (v7AvHeader packet).length = v7AvHeaderSize packet.isVideo packet.usesNaluInfoStructs := by
  unfold v7AvHeader v7AvHeaderFields
  cases packet.isVideo <;> cases packet.usesNaluInfoStructs <;> simp [v7AvHeaderSize] <;> rfl

theorem v7AvHeaderFields_adjacent : Adjacent 0 (v7AvHeaderFields packet) := by
  unfold v7AvHeaderFields
  cases packet.isVideo <;> cases packet.usesNaluInfoStructs <;> simp [Adjacent]

theorem takionV7AvPacketFormatHeader_eq {buf : Bytes}
    (room : v7AvHeaderSize packet.isVideo packet.usesNaluInfoStructs ≤ buf.length) :
    takionV7AvPacketFormatHeader buf packet =
      .ok (.success, (v7AvHeader packet).length, v7AvHeader packet ++ buf.drop (v7AvHeader packet).length) := by
  have inside : (v7AvHeader packet).length ≤ buf.length := by rwa [length_v7AvHeader]
  have written := @writeAll_adjacent _ (v7AvHeaderFields packet) [] buf v7AvHeaderFields_adjacent inside
  rw [← v7AvHeader, List.nil_append, List.nil_append] at written
  rw [takionV7AvPacketFormatHeader, if_neg (Nat.not_lt.mpr room), written, inBounds_some, ok_bind, ← length_v7AvHeader]
  rfl

/-! ## Reading it back -/

theorem skip_add (offset n rest : Nat) : AVCursor.skip ⟨offset, n + rest⟩ n = ⟨offset + n, rest⟩ := by
  simp [AVCursor.skip]

theorem skipIf_add (offset n rest : Nat) (cond : Bool) :
    AVCursor.skipIf ⟨offset, (if cond then n else 0) + rest⟩ cond n = ⟨offset + (if cond then n else 0), rest⟩ := by
  cases cond with
  | false => simp [AVCursor.skipIf]
  | true => simp [AVCursor.skipIf, skip_add]

/-- The values that fit into the fields. An audio packet has no word and no stream index. -/
structure FitsV7AvHeader (packet : TakionAVPacket) : Prop where
  packetIndex : packet.packetIndex < 2 ^ 16
  frameIndex : packet.frameIndex < 2 ^ 16
  unitIndex : packet.unitIndex < 2 ^ 11
  total_pos : 0 < packet.unitsInFrameTotal
  total_le : packet.unitsInFrameTotal ≤ 2 ^ 11
  fec : packet.unitsInFrameFec < 2 ^ 10
  codec : packet.codec < 2 ^ 8
  keyPos : packet.keyPos < 2 ^ 32
  word : packet.wordAt0x18 < if packet.isVideo then 2 ^ 16 else 1
  streamIndex : packet.adaptiveStreamIndex < if packet.isVideo then 2 ^ 3 else 1

/-- The bytes of the number in the other order. -/
def byteSwap32 (n : Nat) : Nat := ntoh (LittleEndian.ofNat 4 n)

section Fits
variable (fits : FitsV7AvHeader packet)
include fits

theorem v7AvUnitsWord_eq : v7AvUnitsWord packet =
    packet.unitIndex * 2 ^ 0x15 + ((packet.unitsInFrameTotal - 1) * 2 ^ 0xa + packet.unitsInFrameFec) := by
  have fec := fits.fec
  have total := fits.total_le
  have positive := fits.total_pos
  have index := fits.unitIndex
  have fecBits : packet.unitsInFrameFec &&& 0x3ff = packet.unitsInFrameFec := by
    rw [show (0x3ff : Nat) = 2 ^ 10 - 1 by rfl, Nat.and_two_pow_sub_one_eq_mod]
    exact Nat.mod_eq_of_lt fec
  have totalBits : (packet.unitsInFrameTotal + 0x7ff) &&& 0x7ff = packet.unitsInFrameTotal - 1 := by
    rw [show (0x7ff : Nat) = 2 ^ 11 - 1 by rfl, Nat.and_two_pow_sub_one_eq_mod]
    omega
  have indexBits : packet.unitIndex &&& 0xffff = packet.unitIndex := by
    rw [show (0xffff : Nat) = 2 ^ 16 - 1 by rfl, Nat.and_two_pow_sub_one_eq_mod]
    exact Nat.mod_eq_of_lt (by omega)
  have low : (packet.unitsInFrameTotal - 1) <<< 0xa + packet.unitsInFrameFec < 2 ^ 0x15 := by
    rw [Nat.shiftLeft_eq]
    omega
  rw [v7AvUnitsWord, fecBits, totalBits, indexBits, Nat.or_comm packet.unitsInFrameFec,
    ← Nat.shiftLeft_add_eq_or_of_lt fec, Nat.or_comm, ← Nat.shiftLeft_add_eq_or_of_lt low, Nat.shiftLeft_eq,
    Nat.shiftLeft_eq]

theorem avUnits_v7AvUnitsWord :
    avUnits true (v7AvUnitsWord packet % 2 ^ 32) =
      (packet.unitIndex, packet.unitsInFrameTotal, packet.unitsInFrameFec) := by
  have fec := fits.fec
  have total := fits.total_le
  have positive := fits.total_pos
  have index := fits.unitIndex
  rw [v7AvUnitsWord_eq fits, avUnits, if_pos rfl, Prod.mk.injEq, Prod.mk.injEq]
  exact ⟨by omega, by omega, by omega⟩

/-- What the parser makes of the header and what follows it. -/
def v7AvParsed (packet : TakionAVPacket) (payload : Bytes) : AVParse where
  packetIndex := packet.packetIndex
  frameIndex := packet.frameIndex
  usesNaluInfoStructs := packet.usesNaluInfoStructs
  isVideo := packet.isVideo
  isHaptics := false
  unitIndex := packet.unitIndex
  unitsInFrameTotal := packet.unitsInFrameTotal
  unitsInFrameFec := packet.unitsInFrameFec
  codec := packet.codec
  wordAt0x18 := packet.wordAt0x18
  adaptiveStreamIndex := packet.adaptiveStreamIndex
  byteAt0x2c := 0
  keyPos := byteSwap32 packet.keyPos
  dataOffset := (v7AvHeader packet).length
  dataSize := payload.length

variable (payload : Bytes)

theorem v7AvHeader_numbers :
    read16 (v7AvHeader packet ++ payload) 1 = .ok packet.packetIndex ∧
      read16 (v7AvHeader packet ++ payload) 3 = .ok packet.frameIndex ∧
      read32 (v7AvHeader packet ++ payload) 5 = .ok (v7AvUnitsWord packet % 2 ^ 32) ∧
      byteAt (v7AvHeader packet ++ payload) 9 = .ok (UInt8.ofNat packet.codec) ∧
      read32 (v7AvHeader packet ++ payload) 0xe = .ok (byteSwap32 packet.keyPos) := by
  have length : 0x12 ≤ (v7AvHeader packet ++ payload).length := by
    rw [List.length_append, length_v7AvHeader]
    change 0x12 ≤ 0x12 + _ + _ + _
    omega
  have codecByte : UInt8.ofNat (packet.codec &&& 0xff) = UInt8.ofNat packet.codec := by
    rw [show (0xff : Nat) = 2 ^ 8 - 1 by rfl, Nat.and_two_pow_sub_one_eq_mod, Nat.mod_eq_of_lt fits.codec]
  have packetIndex : ((v7AvHeader packet ++ payload).drop 1).take 2 = htons packet.packetIndex := rfl
  have frameIndex : ((v7AvHeader packet ++ payload).drop 3).take 2 = htons packet.frameIndex := rfl
  have units : ((v7AvHeader packet ++ payload).drop 5).take 4 = htonl (v7AvUnitsWord packet) := rfl
  have codec : (v7AvHeader packet ++ payload)[9]? = some (UInt8.ofNat (packet.codec &&& 0xff)) := rfl
  have keyPos : ((v7AvHeader packet ++ payload).drop 0xe).take 4 = LittleEndian.ofNat 4 packet.keyPos := rfl
  rw [read16_eq (by omega), read16_eq (by omega), read32_eq (by omega), read32_eq (by omega), packetIndex, frameIndex,
    units, keyPos, ntoh_htons, ntoh_htons, ntoh_htonl, byteAt, codec, codecByte, Nat.mod_eq_of_lt fits.packetIndex,
    Nat.mod_eq_of_lt fits.frameIndex]
  exact ⟨rfl, rfl, rfl, rfl, rfl⟩

theorem v7AvHeader_video :
    avVideoFields packet.isVideo (v7AvHeader packet ++ payload) 0x12 =
      .ok (packet.wordAt0x18, packet.adaptiveStreamIndex) := by
  have word := fits.word
  have index := fits.streamIndex
  cases video : packet.isVideo with
  | false =>
      rw [video, if_neg Bool.false_ne_true, Nat.lt_one_iff] at word index
      rw [word, index]
      rfl
  | true =>
      rw [video, if_pos rfl] at word index
      have length : 0x15 ≤ (v7AvHeader packet ++ payload).length := by
        rw [List.length_append, length_v7AvHeader, video]
        change 0x15 ≤ 0x15 + _ + _
        omega
      have wordBytes : ((v7AvHeader packet ++ payload).drop 0x12).take 2 = htons packet.wordAt0x18 := by
        simp [v7AvHeader, v7AvHeaderFields, video, htons, htonl, LittleEndian.ofNat]
      have indexByte : (v7AvHeader packet ++ payload)[0x14]? =
          some (UInt8.ofNat (packet.adaptiveStreamIndex <<< 5)) := by
        simp [v7AvHeader, v7AvHeaderFields, video, htons, htonl, LittleEndian.ofNat]
      have shifted : (UInt8.ofNat (packet.adaptiveStreamIndex <<< 5)).toNat / 2 ^ 5 = packet.adaptiveStreamIndex := by
        rw [UInt8.toNat_ofNat', Nat.shiftLeft_eq]
        omega
      rw [avVideoFields, if_pos rfl, read16_eq (by omega), ok_bind, wordBytes, byteAt, indexByte, inBounds_some, ok_bind,
        shifted, ntoh_htons, Nat.mod_eq_of_lt word]
      rfl

theorem v7AvPacketBody_header :
    v7AvPacketBody (v7AvHeader packet ++ payload) packet.isVideo packet.usesNaluInfoStructs =
      .ok (v7AvParsed packet payload) := by
  obtain ⟨packetIndex, frameIndex, units, codec, keyPos⟩ := v7AvHeader_numbers fits payload
  have length : (v7AvHeader packet ++ payload).length = (v7AvHeader packet).length + payload.length :=
    List.length_append
  have codecNumber : (UInt8.ofNat packet.codec).toNat = packet.codec :=
    UInt8.toNat_ofNat'.trans (Nat.mod_eq_of_lt fits.codec)
  have cursor : ((AVCursor.skip ⟨0, (v7AvHeader packet ++ payload).length⟩ 0x12).skipIf packet.isVideo 3).skipIf
      packet.usesNaluInfoStructs 3 = ⟨(v7AvHeader packet).length, payload.length⟩ := by
    have parts : (v7AvHeader packet).length + payload.length = 0x12 + ((if packet.isVideo then 3 else 0) +
        ((if packet.usesNaluInfoStructs then 3 else 0) + payload.length)) := by
      rw [length_v7AvHeader]
      change 0x12 + _ + _ + _ = _
      rw [Nat.add_assoc, Nat.add_assoc]
      rfl
    rw [length, parts, skip_add, skipIf_add, skipIf_add, length_v7AvHeader, Nat.zero_add]
    rfl
  rw [v7AvPacketBody, packetIndex, ok_bind, frameIndex, ok_bind, units, ok_bind, codec, ok_bind, keyPos, ok_bind]
  simp only [offset_skip, Nat.zero_add, v7AvHeader_video fits payload, ok_bind, avUnits_v7AvUnitsWord fits, codecNumber,
    cursor]
  rfl

theorem takionV7AvPacketParse_header (keyState : KeyState) :
    takionV7AvPacketParse keyState (v7AvHeader packet ++ payload) =
      .ok (keyState, .ok (v7AvParsed packet payload)) := by
  have body := v7AvPacketBody_header fits payload
  have length : v7AvHeaderSize packet.isVideo packet.usesNaluInfoStructs ≤ (v7AvHeader packet ++ payload).length := by
    rw [List.length_append, length_v7AvHeader]
    exact Nat.le_add_right _ _
  have head : (v7AvHeader packet ++ payload).head? = some (v7AvFirstByte packet) := rfl
  have video : isVideoByte (v7AvFirstByte packet) = packet.isVideo := by
    unfold v7AvFirstByte
    cases packet.isVideo <;> cases packet.usesNaluInfoStructs <;> rfl
  have audio : isAudioByte (v7AvFirstByte packet) = !packet.isVideo := by
    unfold v7AvFirstByte
    cases packet.isVideo <;> cases packet.usesNaluInfoStructs <;> rfl
  have nalu : usesNaluByte (v7AvFirstByte packet) = packet.usesNaluInfoStructs := by
    unfold v7AvFirstByte
    cases packet.isVideo <;> cases packet.usesNaluInfoStructs <;> rfl
  generalize v7AvHeader packet ++ payload = buf at body length head ⊢
  cases buf with
  | nil => cases head
  | cons first rest =>
      obtain rfl : first = v7AvFirstByte packet := Option.some.inj head
      rw [takionV7AvPacketParse, video, audio, nalu, if_neg (by simp), if_neg (Nat.not_lt.mpr length), body]
      rfl

end Fits

/-- The parser gives back what was formatted into the buffer, with the payload as the data. -/
def V7RoundTrips (keyState : KeyState) (buf : Bytes) (packet : TakionAVPacket) (payload : Bytes) : Prop :=
  ∃ size buf' parsed, takionV7AvPacketFormatHeader buf packet = .ok (.success, size, buf') ∧
    takionV7AvPacketParse keyState (buf'.take size ++ payload) = .ok (keyState, .ok parsed) ∧
    parsed.packetIndex = packet.packetIndex ∧ parsed.frameIndex = packet.frameIndex ∧
    parsed.unitIndex = packet.unitIndex ∧ parsed.unitsInFrameTotal = packet.unitsInFrameTotal ∧
    parsed.unitsInFrameFec = packet.unitsInFrameFec ∧ parsed.codec = packet.codec ∧
    parsed.keyPos = packet.keyPos ∧ parsed.adaptiveStreamIndex = packet.adaptiveStreamIndex ∧
    parsed.wordAt0x18 = packet.wordAt0x18 ∧ parsed.isVideo = packet.isVideo ∧
    parsed.usesNaluInfoStructs = packet.usesNaluInfoStructs ∧
    (buf'.take size ++ payload).drop parsed.dataOffset = payload ∧ parsed.dataSize = payload.length

/-- Everything comes back but for a key position whose bytes do not read the same both ways. -/
theorem v7RoundTrips_iff (keyState : KeyState) (buf : Bytes) (packet : TakionAVPacket) (payload : Bytes)
    (fits : FitsV7AvHeader packet) (room : v7AvHeaderSize packet.isVideo packet.usesNaluInfoStructs ≤ buf.length) :
    V7RoundTrips keyState buf packet payload ↔ byteSwap32 packet.keyPos = packet.keyPos := by
  have formatted := takionV7AvPacketFormatHeader_eq room
  have parses := takionV7AvPacketParse_header fits payload keyState
  have front : (v7AvHeader packet ++ buf.drop (v7AvHeader packet).length).take (v7AvHeader packet).length =
      v7AvHeader packet := List.take_left
  constructor
  · rintro ⟨size, buf', parsed, formatted', parses', -, -, -, -, -, -, keyPos, -⟩
    rw [formatted] at formatted'
    obtain ⟨-, same⟩ := Prod.mk.inj (Except.ok.inj formatted')
    obtain ⟨rfl, rfl⟩ := Prod.mk.inj same
    rw [front, parses] at parses'
    obtain ⟨-, same⟩ := Prod.mk.inj (Except.ok.inj parses')
    obtain rfl := Except.ok.inj same
    exact keyPos
  · intro same
    refine ⟨_, _, v7AvParsed packet payload, formatted, by rw [front, parses], rfl, rfl, rfl, rfl, rfl, rfl, same, rfl,
      rfl, rfl, rfl, ?_, rfl⟩
    rw [front]
    exact List.drop_left

/-- A video packet with the given key position. -/
def v7VideoAt (keyPos : Nat) : TakionAVPacket where
  packetIndex := 7
  frameIndex := 300
  usesNaluInfoStructs := true
  isVideo := true
  isHaptics := false
  unitIndex := 1500
  unitsInFrameTotal := 2048
  unitsInFrameFec := 5
  codec := 3
  wordAt0x18 := 0x1234
  adaptiveStreamIndex := 6
  byteAt0x2c := 0
  keyPos := keyPos
  data := []
  dataSize_lt := by decide

theorem v7RoundTrips_start : V7RoundTrips .init (List.replicate 64 0) (v7VideoAt 0) [1, 2, 3] :=
  (v7RoundTrips_iff .init (List.replicate 64 0) (v7VideoAt 0) [1, 2, 3]
    ⟨by decide, by decide, by decide, by decide, by decide, by decide, by decide, by decide, by decide, by decide⟩
    (by decide)).mpr (by decide)

/-- Position 16 comes back as 2^28. -/
theorem not_v7RoundTrips : ¬ V7RoundTrips .init (List.replicate 64 0) (v7VideoAt 16) [1, 2, 3] := by
  rintro ⟨size, buf', parsed, formatted, parses, -, -, -, -, -, -, keyPos, -⟩
  have runs : ∃ size buf' parsed, takionV7AvPacketFormatHeader (List.replicate 64 0) (v7VideoAt 16) =
      .ok (.success, size, buf') ∧ takionV7AvPacketParse .init (buf'.take size ++ [1, 2, 3]) =
      .ok (.init, .ok parsed) ∧ parsed.keyPos = 2 ^ 28 := ⟨_, _, _, rfl, rfl, by decide +kernel⟩
  obtain ⟨_, _, _, formatted', parses', swapped⟩ := runs
  rw [formatted] at formatted'
  obtain ⟨-, same⟩ := Prod.mk.inj (Except.ok.inj formatted')
  obtain ⟨rfl, rfl⟩ := Prod.mk.inj same
  rw [parses] at parses'
  obtain ⟨-, same⟩ := Prod.mk.inj (Except.ok.inj parses')
  obtain rfl := Except.ok.inj same
  rw [swapped] at keyPos
  exact absurd keyPos (by decide)

end Chiaki
