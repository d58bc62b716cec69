import Chiaki.Audio.Receiver
import Chiaki.Lib.Machine
import Chiaki.Takion.AVParse

/-!
# The audio sender

`audiosender.c`. A packet carries the frame it is sent for and, as redundancy, two more units, which the sender
takes from the frames it keeps.
-/

namespace Chiaki
open Memory Machine

/-- `ChiakiAudioSender`. The blocks are those that `init` allocates. -/
structure AudioSender where
  ps5 : Bool
  frameBuf : Bytes
  framea : Option Bytes
  frameb : Option Bytes
  filledPacketBuf : Bytes
  frameIndex : Nat

/-- A frame of the encoder, and whether there is memory to keep it. -/
structure OpusCall where
  opus : Bytes
  alloc : Bool

namespace AudioSender

def bufSizePerUnit : Nat := 40
def frameBufSize : Nat := 3 * bufSizePerUnit

/-- `chiaki_audio_sender_init`. -/
def init (ps5 : Bool) : AudioSender where
  ps5 := ps5
  frameBuf := List.replicate frameBufSize 0
  framea := none
  frameb := none
  filledPacketBuf := List.replicate (frameBufSize + 20) 0
  frameIndex := 0

def unitsInFrameTotal : Nat := 3
def unitsInFrameFecRaw : Nat := 10273

/-- `units_number`, for unit 0. -/
def unitsNumber : Nat :=
  (unitsInFrameFecRaw &&& 0xffff) ||| (((unitsInFrameTotal - 1) &&& 0xff) <<< 0x10) ||| ((0 &&& 0xff) <<< 0x18)

/-- What is written to `filled_packet_buf`, each part with its offset. -/
def packetFields (ps5 : Bool) (frameIndex : Nat) (frameBuf : Bytes) : List (Nat × Bytes) :=
  [(0, [TakionPacketType.audio.value]), (1, htons frameIndex), (3, htons (frameIndex + 1)), (5, htonl unitsNumber),
    (9, [5]), (10, htonl 0), (14, htonl 0), (18, [0])] ++ (if ps5 then [(19, [0])] else []) ++
    [(19 + ps5.toNat, frameBuf)]

/-- The index after `chiaki_audio_sender_frame`. -/
def nextFrameIndex (frameIndex : Nat) : Nat := if frameIndex = 0xffff then 0 else frameIndex + 1

/-- `chiaki_audio_sender_opus_data`. The result is what it hands to `chiaki_takion_send_mic_packet`, which encrypts
it in place; the next call writes the whole packet anew. -/
def opusData (sender : AudioSender) (call : OpusCall) : Checked (AudioSender × Option Bytes) :=
  if call.opus.length ≠ bufSizePerUnit then pure (sender, none)
  else
    match sender.frameb, sender.framea with
    | none, _ => pure (if call.alloc then { sender with frameb := some call.opus } else sender, none)
    | some _, none => pure (if call.alloc then { sender with framea := some call.opus } else sender, none)
    | some frameb, some framea => do
        let frameBuf ← setField sender.frameBuf 0 frameb
        let frameBuf ← setField frameBuf bufSizePerUnit framea
        let frameBuf ← setField frameBuf (2 * bufSizePerUnit) call.opus
        let frameBuf ← setField frameBuf 0 call.opus
        let framea ← setField framea 0 call.opus
        let frameb ← setField frameb 0 framea
        let filled ← inBounds (writeAll (packetFields sender.ps5 sender.frameIndex frameBuf) sender.filledPacketBuf)
        pure ({ sender with
          frameBuf := frameBuf
          framea := some framea
          frameb := some frameb
          filledPacketBuf := filled
          frameIndex := nextFrameIndex sender.frameIndex }, some (filled.take (frameBufSize + 19 + sender.ps5.toNat)))

end AudioSender

/-! ## What the receiver makes of a packet -/

/-- The packet a parser describes. -/
def AVParse.packet (parsed : AVParse) (buf : Bytes) (short : buf.length < 2 ^ 16) : TakionAVPacket where
  packetIndex := parsed.packetIndex
  frameIndex := parsed.frameIndex
  usesNaluInfoStructs := parsed.usesNaluInfoStructs
  isVideo := parsed.isVideo
  isHaptics := parsed.isHaptics
  unitIndex := parsed.unitIndex
  unitsInFrameTotal := parsed.unitsInFrameTotal
  unitsInFrameFec := parsed.unitsInFrameFec
  codec := parsed.codec
  wordAt0x18 := parsed.wordAt0x18
  adaptiveStreamIndex := parsed.adaptiveStreamIndex
  byteAt0x2c := parsed.byteAt0x2c
  keyPos := parsed.keyPos
  data := (buf.drop parsed.dataOffset).take parsed.dataSize
  dataSize_lt := by
    rw [List.length_take, List.length_drop]
    omega

namespace TakionAVPacket

/-- A source unit with the frame index that the receiver gives it. -/
def sourceUnit (packet : TakionAVPacket) (i : Nat) : Nat × Bytes :=
  ((packet.frameIndex + i) % 2 ^ 16, (packet.data.drop (packet.audioUnitSize * i)).take packet.audioUnitSize)

/-- A FEC unit with the frame index that the receiver gives it. -/
def fecUnit (packet : TakionAVPacket) (i : Nat) : Nat × Bytes :=
  ((packet.frameIndex + 2 ^ 16 - packet.audioFecUnitsCount + i) % 2 ^ 16,
    (packet.data.drop (packet.audioUnitSize * (packet.audioSourceUnitsCount + i))).take packet.audioUnitSize)

/-- The checks of `chiaki_audio_receiver_av_packet`. -/
structure Receivable (packet : TakionAVPacket) : Prop where
  codec : packet.codec = 5
  some_data : packet.dataSize ≠ 0
  units : packet.audioFecUnitsCount + packet.audioSourceUnitsCount = packet.unitsInFrameTotal
  size : packet.dataSize = packet.audioUnitSize * packet.unitsInFrameTotal

end TakionAVPacket

theorem AudioReceiver.unit_eq (sinks : AudioSinks) (packet : TakionAVPacket) (receiver : AudioReceiver) (i : Nat) :
    receiver.unit sinks packet i =
      if i < packet.audioSourceUnitsCount then
        receiver.frame sinks (packet.sourceUnit i).1 packet.isHaptics (packet.sourceUnit i).2
      else if receiver.frameIndexStartup &&
          decide (packet.frameIndex + (i - packet.audioSourceUnitsCount) < packet.audioFecUnitsCount + 1) then
        (receiver, [])
      else receiver.frame sinks (packet.fecUnit (i - packet.audioSourceUnitsCount)).1 packet.isHaptics
        (packet.fecUnit (i - packet.audioSourceUnitsCount)).2 := by
  unfold unit
  split
  · rfl
  · rename_i behind
    have index : packet.audioSourceUnitsCount + (i - packet.audioSourceUnitsCount) = i := by omega
    rw [TakionAVPacket.fecUnit, index]

namespace AudioSender

/-! ## What is to be shown -/

/-- A packet and the frame it was sent for. -/
structure SentFrame where
  opus : Bytes
  packet : Bytes

/-- The parser for the console finds this packet in the bytes, whatever its key state is. -/
def Parses (ps5 : Bool) (bytes : Bytes) (packet : TakionAVPacket) : Prop :=
  ∃ (short : bytes.length < 2 ^ 16) (keyState keyState' : KeyState) (parsed : AVParse),
    avPacketParse ps5 keyState bytes = .ok (keyState', .ok parsed) ∧ packet = parsed.packet bytes short

/-- The last packet before the `k`-th that has the frame index. -/
def LastWith (ps5 : Bool) (sent : List SentFrame) (k frameIndex : Nat) (s : SentFrame) : Prop :=
  ∃ j < k, sent[j]? = some s ∧ (∃ packet, Parses ps5 s.packet packet ∧ packet.frameIndex = frameIndex) ∧
    ∀ j' s' packet', j < j' → j' < k → sent[j']? = some s' → Parses ps5 s'.packet packet' →
      packet'.frameIndex ≠ frameIndex

structure Agrees (ps5 : Bool) (sent : List SentFrame) : Prop where
  parses : ∀ s ∈ sent, ∀ keyState, ∃ keyState' parsed, avPacketParse ps5 keyState s.packet = .ok (keyState', .ok parsed)
  receivable : ∀ s ∈ sent, ∀ packet, Parses ps5 s.packet packet → packet.Receivable
  source : ∀ s ∈ sent, ∀ packet, Parses ps5 s.packet packet →
    ∀ i < packet.audioSourceUnitsCount, (packet.sourceUnit i).2 = s.opus
  fec : ∀ k s packet, sent[k]? = some s → Parses ps5 s.packet packet →
    ∀ i < packet.audioFecUnitsCount, ∀ s', LastWith ps5 sent k (packet.fecUnit i).1 s' → (packet.fecUnit i).2 = s'.opus

/-- The packets of a run. -/
def sentBy (calls : List OpusCall) (outs : List (Option Bytes)) : List SentFrame :=
  (calls.zip outs).filterMap fun (call, out) => out.map (⟨call.opus, ·⟩)

def LayoutAgrees (ps5 : Bool) (calls : List OpusCall) : Prop :=
  ∃ sender outs, run opusData (init ps5) calls = .ok (sender, outs) ∧ Agrees ps5 (sentBy calls outs)

/-- The frames behind the first two for which there was memory. -/
def laterFrames : (kept : Nat) → List OpusCall → List Bytes
  | _, [] => []
  | kept, call :: calls =>
      if call.opus.length ≠ bufSizePerUnit then laterFrames kept calls
      else if kept < 2 then laterFrames (if call.alloc then kept + 1 else kept) calls
      else call.opus :: laterFrames kept calls

end AudioSender
end Chiaki
