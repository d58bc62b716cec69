import Chiaki.Lib.Machine
import Chiaki.GKCrypt.KeyBuf
import Chiaki.Takion.Send

/-!
# Everything that is sent with the local keys

Messages, acknowledgements and congestion packets reserve a key position, and are authenticated later.
Feedback and microphone packets are encrypted and authenticated with the mutex held all along. The key
stream of the local keys is a function of the position.
-/

namespace Chiaki
open Machine

/-- `chiaki_gkcrypt_decrypt`, which also encrypts. -/
def cryptBytes (stream : Nat → UInt8) (crypt : Option GKCrypt) (alloc ok : Bool) (keyPos : Nat) (buf : Bytes) :
    Checked (Except ErrorCode Bytes) := do
  let paddingPre := keyPos % gkcryptBlockSize
  let fullSize := (paddingPre + buf.length + gkcryptBlockSize - 1) / gkcryptBlockSize * gkcryptBlockSize
  if !alloc then pure (.error .memory)
  else do
    let _ ← deref crypt
    let r ← streamFrom stream ok (keyPos - paddingPre) fullSize
    match r with
    | .error err => pure (.error err)
    | .ok keyStream => do
        let keyStream ← field keyStream paddingPre buf.length
        pure (.ok (List.zipWith (· ^^^ ·) buf keyStream))

structure CongestionPacket where
  word0 : Nat
  received : Nat
  lost : Nat

/-- `chiaki_takion_format_congestion`. -/
def formatCongestion (packet : CongestionPacket) (keyPos : Nat) : Bytes :=
  TakionPacketType.congestion.value :: htons packet.word0 ++ htons packet.received ++ htons packet.lost ++
    htonl 0 ++ htonl keyPos

def takionCongestionPacketSize : Nat := 0xf
def takionARwnd : Nat := 0x19000

/-- The packet both senders of feedback build. -/
def feedbackPacket (type : TakionPacketType) (seqNum : Nat) (payload : Bytes) : Bytes :=
  type.value :: htons seqNum ++ [0] ++ htonl 0 ++ htonl 0 ++ payload

/-- A packet of `chiaki_takion_send_mic_packet`. On a PS5 its header is longer by one byte. -/
structure MicPacket where
  ps5 : Bool
  header : Bytes
  payload : Bytes
  header_length : header.length = 19 + ps5.toNat

/-- What a call reserved. -/
structure Reservation where
  keyPos : Nat
  dataSize : Nat

def Reservation.length (r : Reservation) : Nat := r.dataSize + r.dataSize % gkcryptBlockSize

/-- A payload that was encrypted for the packet with the reservation. -/
structure Encryption where
  reservation : Reservation
  payload : Bytes
  cipher : Bytes

inductive SendEvent where
  | reserved (r : Reservation)
  | encrypted (e : Encryption)
  | authenticated (keyPos : Nat)

namespace TakionLocal

/-- `chiaki_takion_crypt_advance_key_pos`; without keys nothing is reserved. -/
def reserve (takion : TakionLocal) (lock : Bool) (dataSize : Nat) :
    TakionLocal × List SendEvent × Except ErrorCode Nat :=
  match takion.advanceKeyPos lock dataSize with
  | (takion', .error err) => (takion', [], .error err)
  | (takion', .ok keyPos) =>
      (takion', if takion.gkcryptLocal.isSome then [.reserved ⟨keyPos, dataSize⟩] else [], .ok keyPos)

/-- What a call that encrypts meets: the two locks of the recursive mutex, memory, and the crypto
library. -/
structure SealOutcome where
  lock : Bool
  relock : Bool
  alloc : Bool
  stream : Bool
  gmac : Bool

/-- Where the fields of a packet are that is encrypted. -/
structure SealLayout where
  headerSize : Nat
  keyPos : Nat
  mac : Nat

/-- The layout of `takion_send_feedback_packet`. -/
def feedbackLayout : SealLayout := ⟨0xc, 4, 8⟩

/-- The layout of `chiaki_takion_send_mic_packet`. -/
def micLayout (ps5 : Bool) : SealLayout := ⟨19 + ps5.toNat, 14, 10⟩

/-- What both do from the encryption on. -/
def sealAt (lib : CryptoLib) (stream : Nat → UInt8) (takion : TakionLocal) (o : SealOutcome)
    (layout : SealLayout) (buf : Bytes) (keyPos : Nat) :
    Checked (TakionLocal × List SendEvent × Except ErrorCode Bytes) := do
  let payload := buf.drop layout.headerSize
  let r ← cryptBytes stream takion.gkcryptLocal o.alloc o.stream (keyPos + gkcryptBlockSize) payload
  match r with
  | .error err => pure (takion, [], .error err)
  | .ok cipher => do
      let encrypted := [.encrypted ⟨⟨keyPos, payload.length + gkcryptBlockSize⟩, payload, cipher⟩]
      let buf ← setField buf layout.headerSize cipher
      let buf ← setField buf layout.keyPos (htonl keyPos)
      let crypt ← deref takion.gkcryptLocal
      let r ← crypt.gmac lib o.gmac keyPos buf
      let takion := { takion with gkcryptLocal := some r.1 }
      match r.2 with
      | none => pure (takion, encrypted, .error .unknown)
      | some tag => do
          let buf ← setField buf layout.mac tag
          pure (takion, encrypted ++ [.authenticated keyPos], .ok buf)

/-- `takion_send_feedback_packet` and `chiaki_takion_send_mic_packet`: what they hand to the socket. -/
def sendSealed (lib : CryptoLib) (stream : Nat → UInt8) (takion : TakionLocal) (o : SealOutcome)
    (layout : SealLayout) (buf : Bytes) : Checked (TakionLocal × List SendEvent × Except ErrorCode Bytes) :=
  if !o.lock then pure (takion, [], .error .unknown)
  else
    match takion.reserve o.relock (buf.length - layout.headerSize + gkcryptBlockSize) with
    | (takion, events, .error err) => pure (takion, events, .error err)
    | (takion, events, .ok keyPos) => do
        let r ← takion.sealAt lib stream o layout buf keyPos
        pure (r.1, events ++ r.2.1, r.2.2)

/-- `takion_send_feedback_packet`. -/
def sendFeedbackPacket (lib : CryptoLib) (stream : Nat → UInt8) (takion : TakionLocal) (o : SealOutcome)
    (buf : Bytes) : Checked (TakionLocal × List SendEvent × Except ErrorCode Bytes) := do
  assert (buf.length ≥ 0xc)
  takion.sendSealed lib stream o feedbackLayout buf

/-- `chiaki_takion_send_mic_packet`. -/
def sendMicPacket (lib : CryptoLib) (stream : Nat → UInt8) (takion : TakionLocal) (o : SealOutcome)
    (packet : MicPacket) : Checked (TakionLocal × List SendEvent × Except ErrorCode Bytes) :=
  takion.sendSealed lib stream o (micLayout packet.ps5) (packet.header ++ packet.payload)

end TakionLocal

/-- A packet between its reservation and its MAC; a message still has to be numbered. -/
structure InFlight where
  packet : Bytes
  keyPos : Nat
  message : Option SendMessageArgs

structure CryptSenders where
  takion : TakionLocal
  inFlight : List InFlight

namespace CryptSenders

inductive Op where
  /-- `chiaki_takion_send_message_data` up to its reservation. -/
  | messageData (args : SendMessageArgs) (lock alloc : Bool)
  /-- `chiaki_takion_send_message_data_ack` up to its reservation. -/
  | dataAck (seqNum : Nat) (lock : Bool)
  /-- `chiaki_takion_send_congestion` up to its reservation. -/
  | congestion (packet : CongestionPacket) (lock : Bool)
  | number (i : Nat) (lock : Bool)
  /-- `chiaki_takion_send`. -/
  | authenticate (i : Nat) (lock gmac : Bool)
  | feedbackState (seqNum : Nat) (formatted : Bytes) (o : TakionLocal.SealOutcome)
  | feedbackHistory (seqNum : Nat) (payload : Bytes) (alloc : Bool) (o : TakionLocal.SealOutcome)
  | mic (packet : MicPacket) (o : TakionLocal.SealOutcome)

/-- Reserve, and build the packet. -/
def launch (s : CryptSenders) (lock alloc : Bool) (dataSize : Nat) (packet : Nat → Bytes)
    (message : Option SendMessageArgs) : CryptSenders × List SendEvent :=
  match s.takion.reserve lock dataSize with
  | (takion, events, .error _) => ({ s with takion := takion }, events)
  | (takion, events, .ok keyPos) =>
      if alloc then (⟨takion, s.inFlight ++ [⟨packet keyPos, keyPos, message⟩]⟩, events)
      else ({ s with takion := takion }, events)

/-- Give the message at `i` its number. -/
def number (s : CryptSenders) (i : Nat) (lock : Bool) : CryptSenders :=
  match s.inFlight[i]? with
  | some ⟨packet, keyPos, some args⟩ =>
      if lock then
        ⟨{ s.takion with seqNumLocal := (s.takion.seqNumLocal + 1) % 2 ^ 32 },
          s.inFlight.set i ⟨packet ++ args.message s.takion.seqNumLocal, keyPos, none⟩⟩
      else { s with inFlight := s.inFlight.eraseIdx i }
  | _ => s

def authenticate (lib : CryptoLib) (s : CryptSenders) (i : Nat) (lock gmac : Bool) :
    Checked (CryptSenders × List SendEvent) :=
  match s.inFlight[i]? with
  | some ⟨packet, keyPos, none⟩ => do
      let r ← s.takion.authenticate lib lock gmac packet keyPos
      let events := match r.2 with
        | .ok _ => if r.1.gkcryptLocal.isSome then [.authenticated keyPos] else []
        | .error _ => []
      pure (⟨r.1, s.inFlight.eraseIdx i⟩, events)
  | _ => pure (s, [])

def step (lib : CryptoLib) (stream : Nat → UInt8) (s : CryptSenders) : Op → Checked (CryptSenders × List SendEvent)
  | .messageData args lock alloc =>
      pure (s.launch lock alloc args.buf.length (args.head s.takion.tagRemote) (some args))
  | .dataAck seqNum lock =>
      pure (s.launch lock true (1 + takionMessageHeaderSize + 0xc)
        (fun keyPos => dataAckPacket s.takion.tagRemote keyPos seqNum takionARwnd) none)
  | .congestion packet lock =>
      pure (s.launch lock true takionCongestionPacketSize (formatCongestion packet) none)
  | .number i lock => pure (s.number i lock, [])
  | .authenticate i lock gmac => s.authenticate lib i lock gmac
  | .feedbackState seqNum formatted o => do
      let r ← s.takion.sendFeedbackPacket lib stream o (feedbackPacket .feedbackState seqNum formatted)
      pure ({ s with takion := r.1 }, r.2.1)
  | .feedbackHistory seqNum payload alloc o =>
      if alloc then do
        let r ← s.takion.sendFeedbackPacket lib stream o (feedbackPacket .feedbackHistory seqNum payload)
        pure ({ s with takion := r.1 }, r.2.1)
      else pure (s, [])
  | .mic packet o => do
      let r ← s.takion.sendMicPacket lib stream o packet
      pure ({ s with takion := r.1 }, r.2.1)

end CryptSenders
end Chiaki
