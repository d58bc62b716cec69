import Chiaki.GKCrypt.KeyState
import Chiaki.ReorderQueue.Model
import Chiaki.Takion.AVPacket
import Chiaki.Takion.Send

/-!
# The receiving half of a Takion connection

What the Takion thread does with one datagram. The events for the callback, the numbers that
acknowledgements are sent for and the blocks that are freed are returned in order. What the callback does
is not part of a step.
-/

namespace Chiaki

/-- `TakionDataPacketEntry`. The payload is a part of the packet. -/
structure TakionDataPacketEntry where
  typeB : UInt8
  packet : HeapBlock
  payload : Bytes
  channel : Nat

instance : Inhabited TakionDataPacketEntry := ⟨⟨0, ⟨0, []⟩, [], 0⟩⟩

inductive TakionEvent where
  | data (dataType : UInt8) (buf : Bytes)
  | dataAck (seqNum : Nat)
  | av (packet : TakionAVPacket)

structure Takion where
  sending : TakionLocal
  enableCrypt : Bool
  /-- Whether `cb` is set. -/
  cb : Bool
  postponedPackets : Option (List HeapBlock)
  gkcryptRemote : Option GKCrypt
  dataQueue : ReorderQueue TakionDataPacketEntry
  tagLocal : Nat
  avPacketParse : KeyState → Bytes → Checked (KeyState × Except ErrorCode TakionAVPacket)
  keyState : KeyState

/-- The data queue `takion_thread_func` sets up after the handshake. -/
def initDataQueue (seqNumRemoteInitial : Nat) : Option (ReorderQueue TakionDataPacketEntry) :=
  (ReorderQueue.init32 takionReorderQueueSizeExp seqNumRemoteInitial).map (·.setDropCb)

/-- What the handling of a datagram meets: the crypto library, memory, and the mutex of the send buffer. -/
structure ReceiveOutcome where
  gmac : Bool
  alloc : Bool
  lock : Bool

/-- What the handling of a datagram gives away, and what it took out of the data queue. -/
structure Handled where
  pulled : List (Nat × TakionDataPacketEntry) := []
  events : List TakionEvent := []
  acks : List Nat := []
  freed : List Nat := []

namespace Takion

/-- `takion_handle_packet_mac`: the packet it leaves, and its result. -/
def handlePacketMac (lib : CryptoLib) (takion : Takion) (gmacOk : Bool) (buf : Bytes) :
    Checked (Takion × Bytes × Except ErrorCode Unit) :=
  match takion.gkcryptRemote with
  | none => pure (takion, buf, .ok ())
  | some crypt => do
      let keyPos ← packetReadKeyPos takion.keyState buf
      match keyPos with
      | .error err => pure (takion, buf, .error err)
      | .ok keyPos => do
          let r ← packetMac lib gmacOk (some crypt) buf keyPos
          let takion := { takion with gkcryptRemote := r.crypt }
          match r.result with
          | .error err => pure (takion, r.buf, .error err)
          | .ok (macExpected, mac) =>
              if macExpected ≠ mac then pure (takion, r.buf, .error .invalidMac)
              else pure ({ takion with keyState := takion.keyState.commit keyPos }, r.buf, .ok ())

/-- `takion_postpone_packet`. A packet that finds no place is neither kept nor freed. -/
def postponePacket (takion : Takion) (alloc : Bool) (buf : HeapBlock) : Takion :=
  match takion.postponedPackets with
  | none => if alloc then { takion with postponedPackets := some [buf] } else takion
  | some packets =>
      if packets.length ≥ takionPostponePacketsSize then takion
      else { takion with postponedPackets := some (packets ++ [buf]) }

/-- `takion_handle_packet_av`. -/
def handlePacketAv (takion : Takion) (buf : Bytes) : Checked (Takion × List TakionEvent) := do
  let r ← takion.avPacketParse takion.keyState buf
  let takion := { takion with keyState := r.1 }
  match r.2 with
  | .error _ => pure (takion, [])
  | .ok packet => pure (takion, if takion.cb then [.av packet] else [])

end Takion

/-- `TakionMessage`. -/
structure TakionMessage where
  tag : Nat
  keyPos : Nat
  chunkType : UInt8
  chunkFlags : UInt8
  payload : Bytes

/-- `takion_parse_message`. The key position is committed before anything is checked. -/
def parseMessage (keyState : KeyState) (tagLocal : Nat) (buf : Bytes) :
    Checked (KeyState × Except ErrorCode TakionMessage) :=
  if buf.length < takionMessageHeaderSize then pure (keyState, .error .invalidData)
  else do
    let tag ← read32 buf 0
    let keyPosLow ← read32 buf 8
    let (keyState, keyPos) := keyState.requestCommit keyPosLow
    let chunkType ← byteAt buf 0xc
    let chunkFlags ← byteAt buf 0xd
    let payloadSize ← read16 buf 0xe
    if tag ≠ tagLocal then pure (keyState, .error .invalidData)
    else if buf.length ≠ payloadSize + 0xc then pure (keyState, .error .invalidData)
    else pure (keyState, .ok ⟨tag, keyPos, chunkType, chunkFlags, buf.drop 0x10⟩)

/-- The data types that are passed on: protobuf, rumble, 9 and trigger effects. -/
def knownDataTypes : List UInt8 := [0, 7, 9, 11]

/-- The event for a pulled entry, if there is one. -/
def TakionDataPacketEntry.event (entry : TakionDataPacketEntry) : Option TakionEvent :=
  if entry.payload.length < 9 then none
  else entry.payload[8]?.bind fun dataType =>
    if dataType ∈ knownDataTypes then some (.data dataType (entry.payload.drop 9)) else none

/-- Pull until the next packet is missing. -/
def pullAll : (fuel : Nat) → ReorderQueue TakionDataPacketEntry →
    Checked (ReorderQueue TakionDataPacketEntry × List (Nat × TakionDataPacketEntry))
  | 0, q => pure (q, [])
  | fuel + 1, q => do
      let r ← q.pull
      match r.2 with
      | none => pure (r.1, [])
      | some pulled => do
          let rest ← pullAll fuel r.1
          pure (rest.1, pulled :: rest.2)

/-- The events for the packets that were acknowledged. `cb` is called without a look at whether it is set. -/
def dataAckEvents (cb : Bool) (acked : List SendBufferPacket) : Checked (List TakionEvent) :=
  if cb || acked.isEmpty then pure (acked.map fun packet => .dataAck packet.seqNum) else .error .nullPointer

namespace Takion

/-- `takion_flush_data_queue`. It acknowledges the last number it pulled. -/
def flushDataQueue (takion : Takion) : Checked (Takion × Handled) := do
  let r ← pullAll takion.dataQueue.count takion.dataQueue
  pure ({ takion with dataQueue := r.1 },
    { pulled := r.2
      events := if takion.cb then r.2.filterMap (·.2.event) else []
      acks := (r.2.getLast?.map fun pulled => pulled.1 % 2 ^ 32).toList
      freed := r.2.map (·.2.packet.id) })

/-- `takion_handle_packet_message_data`. A short packet, or one for which there is no memory, is neither
kept nor freed. -/
def handlePacketMessageData (takion : Takion) (alloc : Bool) (packet : HeapBlock) (typeB : UInt8)
    (payload : Bytes) : Checked (Takion × Handled) :=
  if payload.length < 9 then pure (takion, {})
  else if !alloc then pure (takion, {})
  else do
    let channel ← read16 payload 4
    let seqNum ← read32 payload 0
    let pushed ← takion.dataQueue.push seqNum ⟨typeB, packet, payload, channel⟩
    let r ← { takion with dataQueue := pushed.1 }.flushDataQueue
    pure (r.1, { r.2 with freed := pushed.2.map (·.2.packet.id) ++ r.2.freed })

/-- `takion_handle_packet_message_data_ack`. -/
def handlePacketMessageDataAck (takion : Takion) (lock : Bool) (payload : Bytes) :
    Checked (Takion × List TakionEvent) := do
  let cumulative ← parseDataAck payload
  match cumulative with
  | none => pure (takion, [])
  | some cumulative =>
      if !lock then pure (takion, [])
      else do
        let r ← takion.sending.sendBuffer.ack cumulative takionSendBufferSize
        let events ← dataAckEvents takion.cb r.2
        pure ({ takion with sending := { takion.sending with sendBuffer := r.1 } }, events)

/-- `takion_handle_packet_message`. -/
def handlePacketMessage (takion : Takion) (o : ReceiveOutcome) (buf : HeapBlock) : Checked (Takion × Handled) := do
  let r ← parseMessage takion.keyState takion.tagLocal (buf.data.drop 1)
  let takion := { takion with keyState := r.1 }
  match r.2 with
  | .error _ => pure (takion, { freed := [buf.id] })
  | .ok msg =>
      if msg.chunkType = TakionChunkType.data.value then
        takion.handlePacketMessageData o.alloc buf msg.chunkFlags msg.payload
      else if msg.chunkType = TakionChunkType.dataAck.value then do
        let r ← takion.handlePacketMessageDataAck o.lock msg.payload
        pure (r.1, { events := r.2, freed := [buf.id] })
      else pure (takion, { freed := [buf.id] })

/-- `takion_handle_packet`. -/
def handlePacket (lib : CryptoLib) (takion : Takion) (o : ReceiveOutcome) (buf : HeapBlock) :
    Checked (Takion × Handled) := do
  assert (buf.data.length > 0)
  let first ← byteAt buf.data 0
  let r ← takion.handlePacketMac lib o.gmac buf.data
  let buf := { buf with data := r.2.1 }
  match r.2.2 with
  | .error _ => pure (r.1, { freed := [buf.id] })
  | .ok () =>
      match TakionPacketType.ofByte first with
      | some .control => r.1.handlePacketMessage o buf
      | some .video | some .audio =>
          if r.1.enableCrypt && r.1.gkcryptRemote.isNone then pure (r.1.postponePacket o.alloc buf, {})
          else do
            let av ← r.1.handlePacketAv buf.data
            pure (av.1, { events := av.2, freed := [buf.id] })
      | _ => pure (r.1, { freed := [buf.id] })

end Takion

/-- A connection with keys of zeros, right after its handshake. -/
def zeroReceiver : Takion where
  sending := ⟨0, some (.ofKeys default (List.replicate 0x10 0) (List.replicate 0x10 0)), 0, 0, .init takionSendBufferSize⟩
  enableCrypt := true
  cb := false
  postponedPackets := none
  gkcryptRemote := some (.ofKeys default (List.replicate 0x10 0) (List.replicate 0x10 0))
  dataQueue := (initDataQueue 0).get rfl
  tagLocal := 0
  avPacketParse := fun state _ => .ok (state, .error .invalidData)
  keyState := .init

end Chiaki
