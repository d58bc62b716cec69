import Chiaki.Common

namespace Chiaki

/-- `ChiakiTakionAVPacket`. `data` is a part of one received datagram. -/
structure TakionAVPacket where
  packetIndex : Nat
  frameIndex : Nat
  usesNaluInfoStructs : Bool
  isVideo : Bool
  isHaptics : Bool
  unitIndex : Nat
  unitsInFrameTotal : Nat
  unitsInFrameFec : Nat
  codec : Nat
  wordAt0x18 : Nat
  adaptiveStreamIndex : Nat
  byteAt0x2c : Nat
  keyPos : Nat
  data : Bytes
  dataSize_lt : data.length < 2 ^ 16

/-- A video packet whose other fields, which the frame processor does not read, are zero. -/
def TakionAVPacket.ofVideoUnit (unitIndex total fec : Nat) (data : Bytes)
    (dataSize_lt : data.length < 2 ^ 16) : TakionAVPacket where
  packetIndex := 0
  frameIndex := 0
  usesNaluInfoStructs := false
  isVideo := true
  isHaptics := false
  unitIndex := unitIndex
  unitsInFrameTotal := total
  unitsInFrameFec := fec
  codec := 0
  wordAt0x18 := 0
  adaptiveStreamIndex := 0
  byteAt0x2c := 0
  keyPos := 0
  data := data
  dataSize_lt := dataSize_lt

def TakionAVPacket.dataSize (packet : TakionAVPacket) : Nat := packet.data.length

end Chiaki
