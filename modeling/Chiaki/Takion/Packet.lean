import Chiaki.Lib.Memory
import Chiaki.NetworkOrder

/-!
# Takion packets on the wire

The types and offsets of `takion.c`, its numbers in network order and the header of a message.
-/

namespace Chiaki
open Memory

inductive TakionPacketType where
  | control
  | feedbackHistory
  | video
  | audio
  | handshake
  | congestion
  | feedbackState
  | clientInfo
  | padInfoEvent
  | padAdaptiveTriggers
  deriving DecidableEq, Repr

def TakionPacketType.value : TakionPacketType → UInt8
  | .control => 0
  | .feedbackHistory => 1
  | .video => 2
  | .audio => 3
  | .handshake => 4
  | .congestion => 5
  | .feedbackState => 6
  | .clientInfo => 8
  | .padInfoEvent => 9
  | .padAdaptiveTriggers => 11

def takionPacketBaseTypeMask : UInt8 := 0xf

/-- The base type in the first byte of a datagram. -/
def TakionPacketType.ofByte (b : UInt8) : Option TakionPacketType :=
  let base := b &&& takionPacketBaseTypeMask
  [control, feedbackHistory, video, audio, handshake, congestion, feedbackState, clientInfo,
    padInfoEvent, padAdaptiveTriggers].find? (·.value = base)

/-- `takion_packet_type_mac_offset`. -/
def TakionPacketType.macOffset : TakionPacketType → Option Nat
  | .control => some 5
  | .video | .audio => some 0xa
  | .congestion => some 7
  | _ => none

/-- `takion_packet_type_key_pos_offset`. -/
def TakionPacketType.keyPosOffset : TakionPacketType → Option Nat
  | .control => some 0x9
  | .video | .audio => some 0xe
  | .congestion => some 0xb
  | _ => none

inductive TakionChunkType where
  | data
  | init
  | initAck
  | dataAck
  | cookie
  | cookieAck
  deriving DecidableEq, Repr

def TakionChunkType.value : TakionChunkType → UInt8
  | .data => 0
  | .init => 1
  | .initAck => 2
  | .dataAck => 3
  | .cookie => 0xa
  | .cookieAck => 0xb

def takionMessageHeaderSize : Nat := 0x10
def gkcryptGmacSize : Nat := 4
def takionSendBufferSize : Nat := 16
def takionReorderQueueSizeExp : Nat := 4
def takionPostponePacketsSize : Nat := 32

/-! ## Numbers in network order -/

/-- `len` bytes of a buffer from an offset on. -/
def field (buf : Bytes) (offset len : Nat) : Checked Bytes := inBounds (read buf offset len)

def setField (buf : Bytes) (offset : Nat) (data : Bytes) : Checked Bytes :=
  inBounds (write buf offset data)

def byteAt (buf : Bytes) (offset : Nat) : Checked UInt8 := inBounds buf[offset]?

def read16 (buf : Bytes) (offset : Nat) : Checked Nat := do
  let bytes ← field buf offset 2
  pure (ntoh bytes)

def read32 (buf : Bytes) (offset : Nat) : Checked Nat := do
  let bytes ← field buf offset 4
  pure (ntoh bytes)

theorem field_eq {buf : Bytes} {offset len : Nat} (inside : offset + len ≤ buf.length) :
    field buf offset len = .ok ((buf.drop offset).take len) := by
  rw [field, read_eq_some inside, inBounds_some]

theorem byteAt_eq {buf : Bytes} {offset : Nat} (inside : offset < buf.length) :
    byteAt buf offset = .ok buf[offset] := by
  rw [byteAt, List.getElem?_eq_getElem inside, inBounds_some]

theorem read16_eq {buf : Bytes} {offset : Nat} (inside : offset + 2 ≤ buf.length) :
    read16 buf offset = .ok (ntoh ((buf.drop offset).take 2)) := by
  rw [read16, field_eq inside]
  rfl

theorem read32_eq {buf : Bytes} {offset : Nat} (inside : offset + 4 ≤ buf.length) :
    read32 buf offset = .ok (ntoh ((buf.drop offset).take 4)) := by
  rw [read32, field_eq inside]
  rfl

theorem field_inside {buf data : Bytes} {offset len : Nat} (got : field buf offset len = .ok data) :
    offset + len ≤ buf.length := by
  by_contra outside
  rw [field, Memory.read, if_neg outside] at got
  cases got

theorem byteAt_inside {buf : Bytes} {offset : Nat} {b : UInt8} (got : byteAt buf offset = .ok b) : offset < buf.length := by
  by_contra outside
  rw [byteAt, List.getElem?_eq_none (not_lt.mp outside)] at got
  cases got

theorem read16_inside {buf : Bytes} {offset n : Nat} (got : read16 buf offset = .ok n) : offset + 2 ≤ buf.length := by
  obtain ⟨bytes, got, -⟩ := bind_eq_ok got
  exact field_inside got

theorem read16_lt {buf : Bytes} {offset n : Nat} (got : read16 buf offset = .ok n) : n < 2 ^ 16 := by
  rw [read16_eq (read16_inside got)] at got
  rw [← Except.ok.inj got]
  exact (ntoh_lt _).trans_le (Nat.pow_le_pow_right (by decide) (Nat.mul_le_mul_left 8 (List.length_take_le 2 _)))

theorem setField_ok {buf data : Bytes} {offset : Nat} (inside : offset + data.length ≤ buf.length) :
    ∃ buf', setField buf offset data = .ok buf' ∧ write buf offset data = some buf' ∧
      buf'.length = buf.length := by
  obtain ⟨buf', written⟩ := exists_write buf data offset inside
  exact ⟨buf', by rw [setField, written, inBounds_some], written, length_of_write written⟩

theorem setField_behind {done old data : Bytes} (room : data.length ≤ old.length) :
    setField (done ++ old) done.length data = .ok (done ++ data ++ old.drop data.length) :=
  congrArg inBounds (write_behind done old data room)

theorem write_of_setField {buf buf' data : Bytes} {offset : Nat} (set : setField buf offset data = .ok buf') :
    write buf offset data = some buf' := by
  unfold setField at set
  cases written : write buf offset data with
  | none => simp [written, inBounds] at set
  | some buf'' =>
      rw [written, inBounds_some] at set
      rw [Except.ok.inj set]

theorem setField_room {buf buf' data : Bytes} {offset : Nat} (set : setField buf offset data = .ok buf') :
    offset + data.length ≤ buf.length := by
  by_contra outside
  rw [setField, Memory.write, if_neg outside] at set
  cases set

theorem getElem?_setField {buf buf' data : Bytes} {offset : Nat} (set : setField buf offset data = .ok buf')
    (i : Nat) : buf'[i]? = if offset ≤ i ∧ i < offset + data.length then data[i - offset]? else buf[i]? :=
  getElem?_of_write (write_of_setField set) i

/-! ## The message header -/

/-- `takion_write_message_header`. -/
def writeMessageHeader (tag keyPos : Nat) (chunkType chunkFlags : UInt8) (payloadDataSize : Nat) : Bytes :=
  htonl tag ++ List.replicate gkcryptGmacSize 0 ++ htonl keyPos ++ [chunkType, chunkFlags] ++
    htons (payloadDataSize + 4)

@[simp] theorem length_writeMessageHeader (tag keyPos : Nat) (chunkType chunkFlags : UInt8)
    (payloadDataSize : Nat) :
    (writeMessageHeader tag keyPos chunkType chunkFlags payloadDataSize).length =
      takionMessageHeaderSize := rfl

end Chiaki
