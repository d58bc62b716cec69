import Chiaki.PacketStats
import Chiaki.Takion.AVPacket

/-!
# The audio receiver

`chiaki_audio_receiver_av_packet` and what it calls. Every call of a sink's `frame_cb` is kept with the frame
index that it was decided on.
-/

namespace Chiaki

def TakionAVPacket.audioUnitSize (packet : TakionAVPacket) : Nat := packet.unitsInFrameFec / 2 ^ 8 % 2 ^ 8
def TakionAVPacket.audioSourceUnitsCount (packet : TakionAVPacket) : Nat := packet.unitsInFrameFec % 2 ^ 4
def TakionAVPacket.audioFecUnitsCount (packet : TakionAVPacket) : Nat := packet.unitsInFrameFec / 2 ^ 4 % 2 ^ 4

structure AudioReceiver where
  frameIndexPrev : Nat
  frameIndexStartup : Bool
  packetStats : Option PacketStats
  deriving DecidableEq

/-- Which `frame_cb` of the session's sinks are set. -/
structure AudioSinks where
  audioFrameCb : Bool
  hapticsFrameCb : Bool

/-- A call of a sink's `frame_cb`. -/
structure SinkFrame where
  isHaptics : Bool
  frameIndex : Nat
  buf : Bytes
  deriving DecidableEq

namespace AudioReceiver

def init (packetStats : Option PacketStats) : AudioReceiver := ⟨0, true, packetStats⟩

def frame (sinks : AudioSinks) (receiver : AudioReceiver) (frameIndex : Nat) (isHaptics : Bool) (buf : Bytes) :
    AudioReceiver × List SinkFrame :=
  if !seqNum16Gt frameIndex receiver.frameIndexPrev then (receiver, [])
  else
    let receiver := { receiver with frameIndexPrev := frameIndex }
    if isHaptics && sinks.hapticsFrameCb then (receiver, [⟨isHaptics, frameIndex, buf⟩])
    else if !isHaptics && sinks.audioFrameCb then (receiver, [⟨isHaptics, frameIndex, buf⟩])
    else (receiver, [])

/-- One turn of the loop over the units of a packet. -/
def unit (sinks : AudioSinks) (packet : TakionAVPacket) (receiver : AudioReceiver) (i : Nat) :
    AudioReceiver × List SinkFrame :=
  let buf := (packet.data.drop (packet.audioUnitSize * i)).take packet.audioUnitSize
  if i < packet.audioSourceUnitsCount then
    receiver.frame sinks ((packet.frameIndex + i) % 2 ^ 16) packet.isHaptics buf
  else
    let fecIndex := i - packet.audioSourceUnitsCount
    -- the first packets carry the same frame several times
    if receiver.frameIndexStartup && decide (packet.frameIndex + fecIndex < packet.audioFecUnitsCount + 1) then
      (receiver, [])
    else
      let frameIndex := (packet.frameIndex + 2 ^ 16 - packet.audioFecUnitsCount + fecIndex) % 2 ^ 16
      receiver.frame sinks frameIndex packet.isHaptics buf

def units (sinks : AudioSinks) (packet : TakionAVPacket) : AudioReceiver → List Nat → AudioReceiver × List SinkFrame
  | receiver, [] => (receiver, [])
  | receiver, i :: is =>
      let now := receiver.unit sinks packet i
      let later := units sinks packet now.1 is
      (later.1, now.2 ++ later.2)

def avPacket (sinks : AudioSinks) (receiver : AudioReceiver) (packet : TakionAVPacket) :
    AudioReceiver × List SinkFrame :=
  let sourceUnitsCount := packet.audioSourceUnitsCount
  let fecUnitsCount := packet.audioFecUnitsCount
  if packet.codec ≠ 5 then (receiver, [])
  else if packet.dataSize = 0 then (receiver, [])
  else if fecUnitsCount + sourceUnitsCount ≠ packet.unitsInFrameTotal then (receiver, [])
  else if packet.dataSize ≠ packet.audioUnitSize * packet.unitsInFrameTotal then (receiver, [])
  else
    let receiver := { receiver with
      frameIndexStartup := receiver.frameIndexStartup && !decide (packet.frameIndex > 2 ^ 15) }
    let done := receiver.units sinks packet (List.range (sourceUnitsCount + fecUnitsCount))
    ({ done.1 with packetStats := done.1.packetStats.map fun stats => stats.pushSeq packet.frameIndex }, done.2)

/-- The packets of a run, in the order in which they arrive. -/
def avPackets (sinks : AudioSinks) : AudioReceiver → List TakionAVPacket → AudioReceiver × List SinkFrame
  | receiver, [] => (receiver, [])
  | receiver, packet :: packets =>
      let now := receiver.avPacket sinks packet
      let later := avPackets sinks now.1 packets
      (later.1, now.2 ++ later.2)

end AudioReceiver

end Chiaki
