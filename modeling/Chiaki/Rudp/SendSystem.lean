import Chiaki.Lib.Machine
import Chiaki.Rudp.Message
import Chiaki.Rudp.SendBuffer
import Chiaki.Takion.SendSystem

/-!
# Senders, acknowledgements and resends over RUDP

Any number of threads are inside `chiaki_rudp_send_ctrl_message` or the message that switches to the stream
connection, the ctrl thread handles what it receives and the thread of the send buffer resends. A step is what
happens between two points at which another thread can take over.
-/

namespace Chiaki

def rudpSendBufferSize : Nat := 16

/-- The size of `rudp_recv_buf`. -/
def rudpRecvBufSize : Nat := 520

/-- What a call sends. -/
inductive RudpSend where
  | ctrlMessage (message : Bytes)
  | switchToStreamConnection (random : Bytes)

/-- What follows the counter. -/
def RudpSend.body : RudpSend → Bytes
  | .ctrlMessage message => message
  | .switchToStreamConnection random => [0x00, 0x00, 0x00, 0x10, 0x00, 0x0D, 0x00, 0x00] ++ random

/-- The message of a call, of type `CTRL_MESSAGE`. -/
def RudpSend.packet (send : RudpSend) (counter : Nat) : Bytes :=
  rudpMessageSerialize
    [⟨0x0230, (0xC000 ||| (8 + (2 + send.body.length))) % 2 ^ 16, htons counter ++ send.body⟩]

/-- Where a call is. Every counter that is taken has a position. -/
inductive RudpSendPhase where
  | start
  /-- `counter` is taken. -/
  | counted (position counter : Nat)
  /-- The counter of the instance is read again. -/
  | numbered (position counter counterAck : Nat)
  | sent (position counterAck : Nat) (packet : Bytes)
  | returned (err : ErrorCode) (position counterAck : Nat)

namespace RudpSendPhase

def position : RudpSendPhase → Option Nat
  | .start => none
  | .counted position _ | .numbered position _ _ | .sent position _ _ | .returned _ position _ => some position

/-- The number a call pushes its packet under. -/
def number : RudpSendPhase → Option Nat
  | .start | .counted _ _ => none
  | .numbered _ _ counterAck | .sent _ counterAck _ | .returned _ _ counterAck => some counterAck

end RudpSendPhase

structure RudpSendCall where
  send : RudpSend
  phase : RudpSendPhase

/-- What the step of a call meets. -/
structure RudpOutcome where
  alloc : Bool := true
  network : Bool := true
  lock : Bool := true
  now : Nat := 0

/-- Where the ctrl thread is. `ackCounter` is there once a counter was read from the message or from one it is a
submessage of. -/
inductive RudpReceiving where
  | selecting
  | handling (ackCounter : Option Nat) (message : RudpParsed) (sub : List RudpParsed)
  | left

structure RudpSystem where
  counter : Nat
  /-- How many counters were taken. -/
  taken : Nat
  sendBuffer : SendBuffer
  calls : List RudpSendCall
  receiving : RudpReceiving
  resend : ResendPhase
  /-- The counters that were read from received messages. -/
  counters : List Nat

namespace RudpSystem

def init (counter : Nat) : RudpSystem where
  counter := counter
  taken := 0
  sendBuffer := .init rudpSendBufferSize
  calls := []
  receiving := .selecting
  resend := .idle
  counters := []

/-- `get_then_increase_counter`. -/
def getThenIncreaseCounter (s : RudpSystem) : RudpSystem :=
  { s with counter := if s.counter ≥ 2 ^ 16 - 1 then 0 else s.counter + 1, taken := s.taken + 1 }

def setPhase (s : RudpSystem) (i : Nat) (call : RudpSendCall) (phase : RudpSendPhase) : RudpSystem :=
  { s with calls := s.calls.set i { call with phase := phase } }

/-- The next step of call `i`. -/
def advance (s : RudpSystem) (i : Nat) (call : RudpSendCall) (o : RudpOutcome) : RudpSystem :=
  match call.phase with
  | .start => s.getThenIncreaseCounter.setPhase i call (.counted s.taken s.counter)
  | .counted position counter => s.setPhase i call (.numbered position counter s.counter)
  | .numbered position counter counterAck =>
      if !o.alloc then s.setPhase i call (.returned .memory position counterAck)
      else if !o.network then s.setPhase i call (.returned .network position counterAck)
      else s.setPhase i call (.sent position counterAck (call.send.packet counter))
  | .sent position counterAck packet =>
      if o.lock then
        let r := s.sendBuffer.push counterAck o.now ⟨i, packet⟩
        { s with sendBuffer := r.1 }.setPhase i call (.returned r.2 position counterAck)
      else s.setPhase i call (.returned .unknown position counterAck)
  | .returned _ _ _ => s

/-- `chiaki_rudp_send_buffer_ack` as its two callers see it. -/
def ackBuffer (s : RudpSystem) (lock : Bool) (seqNum capacity : Nat) : Checked RudpSystem :=
  if lock then do
    let r ← s.sendBuffer.rudpAck seqNum capacity
    pure { s with sendBuffer := r.1 }
  else pure s

/-- `chiaki_rudp_ack_packet`. -/
def ackPacket (s : RudpSystem) (lock : Bool) (counterToAck : Nat) : Checked RudpSystem :=
  s.ackBuffer lock counterToAck rudpSendBufferSize

/-- `chiaki_rudp_recv_only`, and the check of the size of the outermost message. `recvBufSize` bytes are left over
from before. -/
def receive (s : RudpSystem) (alloc : Nat → Bool) (recvBufSize : Nat) (datagram : Bytes) : Checked RudpSystem :=
  let received := datagram.take (rudpRecvBufSize - recvBufSize)
  if received.length ≤ 8 then pure { s with receiving := .left }
  else do
    let r ← rudpParse alloc received
    match r.err, r.chain with
    | .success, message :: sub =>
        if message.data.length < 4 then pure { s with receiving := .left }
        else pure { s with receiving := .handling none message sub }
    | _, _ => pure { s with receiving := .left }

/-- The types of messages that have a counter to acknowledge. -/
def acknowledges (subtype : Nat) : Bool := subtype ∈ [0x02, 0x12, 0x26, 0x36, 0x24]

/-- The thread goes on to the submessage. -/
def afterMessage (ackCounter : Option Nat) : List RudpParsed → RudpReceiving
  | [] => .selecting
  | message :: sub => .handling ackCounter message sub

/-- The `switch` over the type of the message. -/
def handle (s : RudpSystem) (lock : Bool) (ackCounter : Option Nat) (message : RudpParsed) (sub : List RudpParsed) :
    Checked RudpSystem :=
  if acknowledges message.subtype then do
    let counter ← read16 message.data 2
    { s with counters := s.counters ++ [counter], receiving := afterMessage (some counter) sub }.ackPacket lock counter
  else if message.subtype = 0xC0 then pure { s with receiving := afterMessage ackCounter sub }
  else { s with receiving := afterMessage ackCounter sub }.ackPacket lock (ackCounter.getD 0)

/-- The loop of a resend from `i` on. -/
def scan (s : RudpSystem) (now i : Nat) : Checked RudpSystem := do
  let r ← s.sendBuffer.rudpResendFrom now i
  pure { s with sendBuffer := r.1, resend := .afterLoop now r.2.2 }

inductive Op where
  /-- A thread calls one of the two functions. -/
  | call (send : RudpSend)
  | advance (i : Nat) (o : RudpOutcome)
  /-- Another message takes a counter. -/
  | takeCounter
  | receive (alloc : Nat → Bool) (recvBufSize : Nat) (datagram : Bytes)
  | handle (lock : Bool)
  | resend (now : Nat)
  /-- The read of the number of the packet to give up, without the mutex. -/
  | readGivenUp
  | ackGivenUp (lock : Bool)
  | resume

def step (s : RudpSystem) : Op → Checked (RudpSystem × Unit)
  | .call send => pure ({ s with calls := s.calls ++ [⟨send, .start⟩] }, ())
  | .advance i o =>
      match s.calls[i]? with
      | none => pure (s, ())
      | some call => pure (s.advance i call o, ())
  | .takeCounter => pure (s.getThenIncreaseCounter, ())
  | .receive alloc recvBufSize datagram =>
      match s.receiving with
      | .selecting => do
          let s ← s.receive alloc recvBufSize datagram
          pure (s, ())
      | _ => pure (s, ())
  | .handle lock =>
      match s.receiving with
      | .handling ackCounter message sub => do
          let s ← s.handle lock ackCounter message sub
          pure (s, ())
      | _ => pure (s, ())
  | .resend now =>
      match s.resend with
      | .idle => do
          let s ← s.scan now 0
          pure (s, ())
      | _ => pure (s, ())
  | .readGivenUp =>
      match s.resend with
      | .givingUp now i => do
          let packet ← inBounds s.sendBuffer.packets[i]?
          pure ({ s with resend := .acking now i packet.seqNum }, ())
      | _ => pure (s, ())
  | .ackGivenUp lock =>
      match s.resend with
      | .acking now i seqNum => do
          -- the array for the numbers is a single variable
          let s ← s.ackBuffer lock seqNum 1
          pure ({ s with resend := .relocking now i }, ())
      | _ => pure (s, ())
  | .resume =>
      match s.resend with
      | .relocking now i => do
          let s ← s.scan now i
          pure (s, ())
      | _ => pure (s, ())

end RudpSystem
end Chiaki
