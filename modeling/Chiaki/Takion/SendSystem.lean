import Chiaki.Lib.Machine
import Chiaki.Takion.Send

/-!
# Senders, acknowledgements and resends

Any number of threads are inside calls of `chiaki_takion_send_message_data` or `…_cont`, the receive
thread handles acknowledgements and the thread of the send buffer resends. A step is what happens
between two points at which another thread can take over. The packet of the `i`-th call is block `i`.
-/

namespace Chiaki

/-- Where a call is. -/
inductive SendPhase where
  | start
  /-- The key position is reserved and the packet allocated. -/
  | reserved (packet : Bytes) (keyPos : Nat)
  | numbered (packet : Bytes) (keyPos seqNum : Nat)
  | authenticated (packet : Bytes) (seqNum : Nat)
  /-- The packet is on the wire. -/
  | sent (packet : Bytes) (seqNum : Nat)
  | returned (err : ErrorCode) (seqNum : Option Nat)
  deriving DecidableEq

namespace SendPhase

/-- The number a call was given. -/
def seqNum : SendPhase → Option Nat
  | .start | .reserved _ _ => none
  | .numbered _ _ seqNum | .authenticated _ seqNum | .sent _ seqNum => some seqNum
  | .returned _ seqNum => seqNum

/-- Whether the socket has taken the packet. -/
def onWire : SendPhase → Bool
  | .sent _ _ | .returned .success _ => true
  | _ => false

end SendPhase

structure SendCall where
  args : SendMessageArgs
  phase : SendPhase

/-- What the step of a call meets: whether the mutex it takes can be locked, whether memory is there or
the socket takes the packet, whether the crypto library works, and the time. -/
structure SendOutcome where
  lock : Bool
  ok : Bool
  gmac : Bool
  now : Nat

/-- Where the thread of the send buffer is in `takion_send_buffer_resend`. -/
inductive ResendPhase where
  | idle
  /-- The mutex was released to give up the packet at `i`. -/
  | givingUp (now i : Nat)
  | acking (now i seqNum : Nat)
  | relocking (now i : Nat)

/-- The loop of a resend ended, or it came to a packet to give up. -/
def ResendPhase.afterLoop (now : Nat) : Option Nat → ResendPhase
  | none => .idle
  | some i => .givingUp now i

structure SendSystem where
  takion : TakionLocal
  calls : List SendCall
  resend : ResendPhase
  /-- The acknowledgement events, each with its number and the block of the packet. -/
  events : List (Nat × Nat)
  /-- The blocks that were sent again. -/
  resent : List Nat
  /-- The calls whose packet was on the wire when an acknowledgement that covers it was handled. -/
  acknowledged : List Nat
  /-- The calls whose packet was given up after its own tries. -/
  givenUp : List Nat

namespace SendSystem

/-- A connected Takion that has sent nothing yet. -/
def init (tagRemote seqNumLocal : Nat) (gkcryptLocal : Option GKCrypt) : SendSystem where
  takion := {
    tagRemote := tagRemote
    gkcryptLocal := gkcryptLocal
    keyPosLocal := 0
    seqNumLocal := seqNumLocal
    sendBuffer := .init takionSendBufferSize }
  calls := []
  resend := .idle
  events := []
  resent := []
  acknowledged := []
  givenUp := []

/-- The next step of call `id`. -/
def advance (lib : CryptoLib) (takion : TakionLocal) (id : Nat) (call : SendCall) (o : SendOutcome) :
    Checked (TakionLocal × SendPhase) :=
  match call.phase with
  | .start =>
      match takion.advanceKeyPos o.lock call.args.buf.length with
      | (takion, .error err) => pure (takion, .returned err none)
      | (takion, .ok keyPos) =>
          if o.ok then pure (takion, .reserved (call.args.head takion.tagRemote keyPos) keyPos)
          else pure (takion, .returned .memory none)
  | .reserved packet keyPos =>
      if o.lock then
        pure ({ takion with seqNumLocal := (takion.seqNumLocal + 1) % 2 ^ 32 },
          .numbered (packet ++ call.args.message takion.seqNumLocal) keyPos takion.seqNumLocal)
      else pure (takion, .returned .unknown none)
  | .numbered packet keyPos seqNum => do
      let r ← takion.authenticate lib o.lock o.gmac packet keyPos
      match r.2 with
      | .error err => pure (r.1, .returned err (some seqNum))
      | .ok packet => pure (r.1, .authenticated packet seqNum)
  | .authenticated packet seqNum =>
      if o.ok then pure (takion, .sent packet seqNum)
      else pure (takion, .returned .network (some seqNum))
  | .sent packet seqNum =>
      -- the result of `push` is not looked at
      if o.lock then
        pure ({ takion with sendBuffer := (takion.sendBuffer.push seqNum o.now ⟨id, packet⟩).1 },
          .returned .success (some seqNum))
      else pure (takion, .returned .success (some seqNum))
  | .returned err seqNum => pure (takion, .returned err seqNum)

/-- The calls whose packet is on the wire and covered by the acknowledgement. -/
def covered (s : SendSystem) (cumulative : Nat) : List Nat :=
  (List.range s.calls.length).filter fun i =>
    match s.calls[i]? with
    | some call => call.phase.onWire && call.phase.seqNum.any (SendBuffer.coversNumber cumulative)
    | none => false

/-- `chiaki_takion_send_buffer_ack` as its two callers see it. When the mutex cannot be locked it changes
nothing. -/
def ackBuffer (s : SendSystem) (lock : Bool) (seqNum capacity : Nat) :
    Checked (SendSystem × List SendBufferPacket) :=
  if lock then do
    let r ← s.takion.sendBuffer.ack seqNum capacity
    pure ({ s with takion := { s.takion with sendBuffer := r.1 } }, r.2)
  else pure (s, [])

/-- `takion_handle_packet_message_data_ack`: one event for every packet that was in the buffer. -/
def handleDataAck (s : SendSystem) (payload : Bytes) (lock : Bool) : Checked SendSystem := do
  let cumulative ← parseDataAck payload
  match cumulative with
  | none => pure s
  | some cumulative => do
      let r ← s.ackBuffer lock cumulative takionSendBufferSize
      pure { r.1 with
        events := s.events ++ r.2.map fun packet => (packet.seqNum, packet.buf.id)
        acknowledged := s.acknowledged ++ (s.covered cumulative).filter (· ∉ s.acknowledged) }

/-- The loop of a resend from `i` on, up to its end or to the next packet to give up. -/
def scan (s : SendSystem) (now i : Nat) : Checked SendSystem := do
  let buffer := s.takion.sendBuffer
  let r ← SendBuffer.resendFrom now (buffer.packetsCount - i) i buffer []
  pure { s with
    takion := { s.takion with sendBuffer := r.1 }
    resent := s.resent ++ r.2.1.map (·.id)
    resend := .afterLoop now r.2.2 }

inductive Op where
  /-- A thread calls one of the two functions. -/
  | call (args : SendMessageArgs)
  | advance (i : Nat) (o : SendOutcome)
  | dataAck (payload : Bytes) (lock : Bool)
  | resend (now : Nat)
  /-- The read of the number of the packet to give up, without the mutex. -/
  | readGivenUp
  | ackGivenUp (lock : Bool)
  | resume
  /-- Anything else that uses the local keys or sets them. -/
  | crypt (gkcryptLocal : Option GKCrypt) (keyPosLocal : Nat)

def step (lib : CryptoLib) (s : SendSystem) : Op → Checked (SendSystem × Unit)
  | .call args => pure ({ s with calls := s.calls ++ [⟨args, .start⟩] }, ())
  | .advance i o =>
      match s.calls[i]? with
      | none => pure (s, ())
      | some call => do
          let r ← advance lib s.takion i call o
          pure ({ s with takion := r.1, calls := s.calls.set i { call with phase := r.2 } }, ())
  | .dataAck payload lock => do
      let s ← s.handleDataAck payload lock
      pure (s, ())
  | .resend now =>
      match s.resend with
      | .idle => do
          let s ← s.scan now 0
          pure (s, ())
      | _ => pure (s, ())
  | .readGivenUp =>
      match s.resend with
      | .givingUp now i => do
          let packet ← inBounds s.takion.sendBuffer.packets[i]?
          pure ({ s with resend := .acking now i packet.seqNum }, ())
      | _ => pure (s, ())
  | .ackGivenUp lock =>
      match s.resend with
      | .acking now i seqNum => do
          -- the array for the numbers is a single variable
          let r ← s.ackBuffer lock seqNum 1
          pure ({ r.1 with
            resend := .relocking now i
            givenUp := s.givenUp ++
              (r.2.filter (·.tries ≥ takionDataResendTriesMax)).map (·.buf.id) }, ())
      | _ => pure (s, ())
  | .resume =>
      match s.resend with
      | .relocking now i => do
          let s ← s.scan now i
          pure (s, ())
      | _ => pure (s, ())
  | .crypt gkcryptLocal keyPosLocal =>
      pure ({ s with
        takion := { s.takion with gkcryptLocal := gkcryptLocal, keyPosLocal := keyPosLocal } }, ())

end SendSystem
end Chiaki
