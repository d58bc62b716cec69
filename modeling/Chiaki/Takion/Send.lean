import Chiaki.Takion.Mac
import Chiaki.Takion.SendBuffer

/-!
# The sending half of a Takion connection

What senders share, and the packets they build. Whether a mutex can be locked, memory is there and the
socket takes a packet are arguments. Sizes are those of buffers in memory, so their sums do not wrap.
-/

namespace Chiaki

structure TakionLocal where
  tagRemote : Nat
  gkcryptLocal : Option GKCrypt
  keyPosLocal : Nat
  seqNumLocal : Nat
  sendBuffer : SendBuffer

namespace TakionLocal

/-- `chiaki_takion_crypt_advance_key_pos`. -/
def advanceKeyPos (takion : TakionLocal) (lock : Bool) (dataSize : Nat) :
    TakionLocal × Except ErrorCode Nat :=
  let dataSize := dataSize + dataSize % gkcryptBlockSize
  if !lock then (takion, .error .unknown)
  else if takion.gkcryptLocal.isSome then
    if 2 ^ 64 - 1 - takion.keyPosLocal < dataSize then (takion, .error .overflow)
    else ({ takion with keyPosLocal := takion.keyPosLocal + dataSize }, .ok takion.keyPosLocal)
  else (takion, .ok 0)

/-- The part of `chiaki_takion_send` that is done with the mutex held: the packet with its MAC. -/
def authenticate (lib : CryptoLib) (takion : TakionLocal) (lock gmacOk : Bool) (buf : Bytes)
    (keyPos : Nat) : Checked (TakionLocal × Except ErrorCode Bytes) :=
  if !lock then pure (takion, .error .unknown)
  else do
    let r ← packetMac lib gmacOk takion.gkcryptLocal buf keyPos
    pure ({ takion with gkcryptLocal := r.crypt }, r.result.map fun _ => r.buf)

end TakionLocal

/-- The arguments of a call of `chiaki_takion_send_message_data` or `…_cont`. They differ in one byte
between the header of the data and the data. -/
structure SendMessageArgs where
  marker : Bytes
  chunkFlags : UInt8
  channel : Nat
  buf : Bytes

/-- `chiaki_takion_send_message_data`. -/
def sendMessageData (chunkFlags : UInt8) (channel : Nat) (buf : Bytes) : SendMessageArgs :=
  ⟨[0], chunkFlags, channel, buf⟩

/-- `chiaki_takion_send_message_data_cont`. -/
def sendMessageDataCont (chunkFlags : UInt8) (channel : Nat) (buf : Bytes) : SendMessageArgs :=
  ⟨[], chunkFlags, channel, buf⟩

namespace SendMessageArgs

/-- The packet as far as it is known before it has a number. -/
def head (args : SendMessageArgs) (tagRemote keyPos : Nat) : Bytes :=
  TakionPacketType.control.value ::
    writeMessageHeader tagRemote keyPos TakionChunkType.data.value args.chunkFlags
      (8 + args.marker.length + args.buf.length)

def message (args : SendMessageArgs) (seqNum : Nat) : Bytes :=
  htonl seqNum ++ htons args.channel ++ htons 0 ++ args.marker ++ args.buf

end SendMessageArgs

/-- The packet of `chiaki_takion_send_message_data_ack` before it is authenticated. -/
def dataAckPacket (tagRemote keyPos seqNum aRwnd : Nat) : Bytes :=
  TakionPacketType.control.value :: writeMessageHeader tagRemote keyPos TakionChunkType.dataAck.value 0 0xc ++
    htonl seqNum ++ htonl aRwnd ++ htons 0 ++ htons 0

/-- The checks of `takion_handle_packet_message_data_ack`: the cumulative number of a payload that
passes them. -/
def parseDataAck (payload : Bytes) : Checked (Option Nat) :=
  if payload.length ≠ 0xc then pure none
  else do
    let cumulativeSeqNum ← read32 payload 0
    let gapAckBlocksCount ← read16 payload 8
    if payload.length ≠ gapAckBlocksCount * 4 + 0xc then pure none
    else pure (some cumulativeSeqNum)

theorem parseDataAck_ok (payload : Bytes) : ∃ r, parseDataAck payload = .ok r := by
  unfold parseDataAck
  split
  · exact ⟨_, rfl⟩
  · rename_i size
    rw [read32_eq (by omega), ok_bind, read16_eq (by omega), ok_bind]
    split <;> exact ⟨_, rfl⟩

end Chiaki
