import Chiaki.Takion.AVFormat

/-!
# The state of Senkusha

What `senkusha.c` waits for, and what the callbacks of Takion make of an event.
-/

namespace Chiaki

inductive SenkushaState where
  | idle | takionConnect | expectStreaminfoAck | expectBang | expectDataAck | expectProtocolAck | expectPong | expectMtu
  | expectClientMtuCommand
  deriving DecidableEq

/-- `ChiakiSenkusha`, without the time of the last pong. -/
structure Senkusha where
  state : SenkushaState
  stateFinished : Bool
  stateFailed : Bool
  shouldStop : Bool
  dataAckSeqNumExpected : Nat
  mtuId : Nat
  pingTag : Nat
  pingTestIndex : Nat
  pingIndex : Nat

inductive TakionPayloadType where
  | bang | takionProtocolRequestAck | senkusha | other
  deriving DecidableEq

inductive SenkushaCommand where
  | echo | mtu | clientMtu
  deriving DecidableEq

/-- `tkproto_SenkushaPayload`, with the id of a client MTU command. -/
structure SenkushaPayload where
  command : SenkushaCommand
  clientMtuCommand : Option Nat

/-- `tkproto_TakionMessage`, as far as it is read. -/
structure TkprotoTakionMessage where
  type : TakionPayloadType
  hasBangPayload : Bool
  hasTakionProtocolRequestAck : Bool
  senkushaPayload : Option SenkushaPayload

inductive SenkushaEvent where
  | connected
  | disconnect
  /-- A message that could be decoded, or not. -/
  | data (msg : Option TkprotoTakionMessage)
  | dataAck (seqNum : Nat)
  | av (packet : TakionAVPacket)
  /-- Another thread wants to stop. -/
  | stop

namespace Senkusha

def finish (senkusha : Senkusha) : Senkusha := { senkusha with stateFinished := true }

/-- `senkusha_takion_data`. -/
def takionData (senkusha : Senkusha) : Option TkprotoTakionMessage → Senkusha
  | none => senkusha
  | some msg =>
      match senkusha.state with
      | .expectBang => if msg.type ≠ .bang || !msg.hasBangPayload then senkusha else senkusha.finish
      | .expectProtocolAck =>
          if msg.type ≠ .takionProtocolRequestAck || !msg.hasTakionProtocolRequestAck then senkusha else senkusha.finish
      | .expectClientMtuCommand =>
          if msg.type ≠ .senkusha then senkusha
          else
            match msg.senkushaPayload with
            | some ⟨.clientMtu, some id⟩ => if id ≠ senkusha.mtuId then senkusha else senkusha.finish
            | _ => senkusha
      | _ => senkusha

/-- `senkusha_takion_data_ack`. -/
def takionDataAck (senkusha : Senkusha) (seqNum : Nat) : Senkusha :=
  if senkusha.state = .expectDataAck ∧ senkusha.dataAckSeqNumExpected = seqNum then senkusha.finish else senkusha

/-- `senkusha_takion_av`. -/
def takionAv (senkusha : Senkusha) (packet : TakionAVPacket) : Checked Senkusha :=
  match senkusha.state with
  | .expectPong =>
      if packet.isVideo || packet.frameIndex ≠ senkusha.pingTestIndex || packet.unitIndex ≠ senkusha.pingIndex ||
          packet.dataSize < 8 then pure senkusha
      else do
        let tag ← field packet.data 4 4
        if ntoh tag ≠ senkusha.pingTag then pure senkusha else pure senkusha.finish
  | .expectMtu => pure (if !packet.isVideo || packet.frameIndex ≠ senkusha.mtuId then senkusha else senkusha.finish)
  | _ => pure senkusha

/-- `senkusha_takion_cb`, and `should_stop`. -/
def handle (senkusha : Senkusha) : SenkushaEvent → Checked Senkusha
  | .connected =>
      pure (if senkusha.state = .takionConnect then { senkusha with stateFinished := true, stateFailed := false }
        else senkusha)
  | .disconnect =>
      pure (if senkusha.state = .takionConnect then { senkusha with stateFinished := false, stateFailed := true }
        else senkusha)
  | .data msg => pure (senkusha.takionData msg)
  | .dataAck seqNum => pure (senkusha.takionDataAck seqNum)
  | .av packet => senkusha.takionAv packet
  | .stop => pure { senkusha with shouldStop := true }

/-- `chiaki_cond_timedwait_pred` with `state_finished_cond_check`, and what arrives in this time. -/
def wait (senkusha : Senkusha) (events : List SenkushaEvent) : Checked (Senkusha × ErrorCode) := do
  let senkusha ← events.foldlM handle senkusha
  pure (senkusha, if senkusha.stateFinished || senkusha.shouldStop then .success else .timeout)

/-! ## What is accepted -/

/-- A pong for a ping of a test. -/
def isPong (pingTestIndex pingIndex pingTag : Nat) (packet : TakionAVPacket) : Bool :=
  !packet.isVideo && packet.frameIndex = pingTestIndex && packet.unitIndex = pingIndex && 8 ≤ packet.dataSize &&
    ntoh ((packet.data.drop 4).take 4) = pingTag

def isMtuResponse (mtuId : Nat) (packet : TakionAVPacket) : Bool := packet.isVideo && packet.frameIndex = mtuId

def isClientMtuCommand (mtuId : Nat) (msg : TkprotoTakionMessage) : Bool :=
  msg.type = .senkusha && match msg.senkushaPayload with
    | some ⟨.clientMtu, some id⟩ => id = mtuId
    | _ => false

/-- What ends the wait. -/
def accepts (senkusha : Senkusha) : SenkushaEvent → Bool
  | .data (some msg) =>
      match senkusha.state with
      | .expectBang => msg.type = .bang && msg.hasBangPayload
      | .expectProtocolAck => msg.type = .takionProtocolRequestAck && msg.hasTakionProtocolRequestAck
      | .expectClientMtuCommand => isClientMtuCommand senkusha.mtuId msg
      | _ => false
  | .dataAck seqNum => senkusha.state = .expectDataAck && senkusha.dataAckSeqNumExpected = seqNum
  | .av packet =>
      match senkusha.state with
      | .expectPong => isPong senkusha.pingTestIndex senkusha.pingIndex senkusha.pingTag packet
      | .expectMtu => isMtuResponse senkusha.mtuId packet
      | _ => false
  | _ => false

variable {senkusha : Senkusha}

end Senkusha
end Chiaki
