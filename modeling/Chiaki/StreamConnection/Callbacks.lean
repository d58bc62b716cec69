import Chiaki.Controller.State
import Chiaki.NetworkOrder
import Chiaki.Video.Receiver

/-!
# The stream connection

What `streamconnection.c` shares between the thread that runs the connection, the thread of Takion that calls back
and the threads that want to stop it or to set the state of the controller. The callbacks come first.
-/

namespace Chiaki

inductive StreamConnectionState where
  | idle | takionConnect | expectBang | expectStreaminfo
  deriving DecidableEq, Repr

/-! ## Messages -/

/-- `tkproto_TakionMessage_PayloadType`, as far as the callbacks tell the types apart. -/
inductive StreamPayloadType where
  | bang | streaminfo | disconnect | connectionquality | corruptframe | streaminfoack | other
  deriving DecidableEq, Repr

/-- A field that is decoded by a callback is given by its occurrences. -/
structure BangPayload where
  versionAccepted : Bool
  encryptedKeyAccepted : Bool
  ecdhPubKey : List Bytes
  ecdhSig : List Bytes

structure ResolutionPayload where
  width : Nat
  height : Nat
  videoHeader : List Bytes

structure StreamInfoPayload where
  audioHeader : List Bytes
  resolution : List ResolutionPayload

structure StreamMessage where
  type : StreamPayloadType
  bangPayload : Option BangPayload
  streamInfoPayload : Option StreamInfoPayload
  disconnectReason : List Bytes

/-- `chiaki_pb_decode_buf` for all occurrences of a field. -/
def pbDecodeBuf (maxSize : Nat) (occurrences : List Bytes) : Option Bytes :=
  occurrences.foldlM (fun _ field => if field.length > maxSize then none else some field) []

/-- `ChiakiVideoProfile`. The header is followed by the padding. -/
structure VideoProfile where
  width : Nat
  height : Nat
  headerSz : Nat
  header : Bytes
  deriving DecidableEq

/-- `pb_decode_resolution`. `alloc` and `realloc` are whether there is memory. -/
def pbDecodeResolution (alloc realloc : Nat → Bool) (ctx : Nat × List VideoProfile) (resolution : ResolutionPayload) :
    Option (Nat × List VideoProfile) :=
  match resolution.videoHeader.getLast? with
  | none => some (ctx.1 + 1, ctx.2)
  | some header =>
      if !alloc ctx.1 then none
      else if !realloc ctx.1 then some (ctx.1 + 1, ctx.2)
      else if ctx.2.length ≥ videoProfilesMax then some (ctx.1 + 1, ctx.2)
      else
        let padded := header ++ List.replicate videoBufferPaddingSize 0
        some (ctx.1 + 1, ctx.2 ++ [⟨resolution.width, resolution.height, header.length, padded⟩])

/-- `ChiakiAudioHeader`. -/
structure AudioHeader where
  channels : UInt8
  bits : UInt8
  rate : Nat
  frameSize : Nat
  unknown : Nat
  deriving DecidableEq

def audioHeaderSize : Nat := 0xe

/-- `chiaki_audio_header_load`. -/
def AudioHeader.load (buf : Bytes) : Checked AudioHeader := do
  let channels ← inBounds buf[0]?
  let bits ← inBounds buf[1]?
  if buf.length < audioHeaderSize then .error .outOfBounds
  else pure ⟨channels, bits, ntoh ((buf.drop 2).take 4), ntoh ((buf.drop 6).take 4), ntoh ((buf.drop 0xa).take 4)⟩

/-! ## The shared state -/

/-- What `chiaki_gkcrypt_new` makes a key stream of. -/
structure StreamKey where
  index : Nat
  handshakeKey : Bytes
  ecdhSecret : Bytes
  deriving DecidableEq

/-- What the thread that runs the connection waits for. -/
inductive StreamWait where
  | takionConnect | bang | streaminfo | heartbeat
  deriving DecidableEq, Repr

/-- Where `chiaki_stream_connection_run` is. It holds `state_mutex` between two of these points and, once it has
returned early, for good. -/
inductive RunThread where
  | start
  /-- In `chiaki_cond_timedwait_pred`. `woken` is whether the condition was signalled since it was last checked. -/
  | waiting (wait : StreamWait) (woken : Bool)
  /-- About to send `CHIAKI_EVENT_CONNECTED`. -/
  | connected
  /-- About to lock `state_mutex` again. -/
  | notified
  /-- In `chiaki_takion_close`, with the result of the function. -/
  | closing (err : ErrorCode)
  | returned (err : ErrorCode)
  deriving DecidableEq

def RunThread.signalled : RunThread → RunThread
  | .waiting wait _ => .waiting wait true
  | point => point

inductive StreamTakionThread where
  | none | handshake | receiving | ended
  deriving DecidableEq, Repr

/-- `ChiakiStreamConnection`, with what the session and Takion keep for it. -/
structure StreamConnection where
  state : StreamConnectionState := .idle
  stateFinished : Bool := false
  stateFailed : Bool := false
  shouldStop : Bool := false
  remoteDisconnected : Bool := false
  remoteDisconnectReason : Option Bytes := none
  ecdhSecret : Option Bytes := none
  gkcryptLocal : Option StreamKey := none
  gkcryptRemote : Option StreamKey := none
  /-- What `chiaki_takion_set_crypt` was given. -/
  takionCrypt : Option (StreamKey × StreamKey) := none
  audioReceiver : Option Unit := none
  hapticsReceiver : Option Unit := none
  /-- The profiles it was given. -/
  videoReceiver : Option (List VideoProfile) := none
  /-- Whether `congestion_control` has a thread. -/
  congestionControl : Bool := false
  /-- The state the feedback sender was given, once it is initialized. -/
  feedbackSender : Option ControllerState := none
  feedbackSenderActive : Bool := false
  /-- The state of the controller that the session keeps. -/
  controllerState : ControllerState
  /-- Whether `state_mutex` was left locked. -/
  stateMutexHeld : Bool := false
  /-- Calls of `chiaki_stream_connection_stop` that are about to signal the condition. -/
  stopping : Nat := 0
  runThread : RunThread := .start
  takionThread : StreamTakionThread := .none

inductive StreamSend where
  | big | streaminfoAck | controllerConnection | microphone | heartbeat | disconnect
  deriving DecidableEq, Repr

inductive StreamReceiver where
  | video | haptics | audio
  deriving DecidableEq, Repr

/-- What the other parts of the client see of the connection. -/
inductive StreamConnectionOut where
  /-- A message is handed to Takion, with the result. -/
  | sent (what : StreamSend) (err : ErrorCode)
  | setCrypt (gkcryptLocal gkcryptRemote : StreamKey)
  | audioStreamInfo (header : AudioHeader)
  | videoStreamInfo (profiles : List VideoProfile)
  | avPacket (receiver : StreamReceiver)
  /-- `CHIAKI_EVENT_CONNECTED`. -/
  | connected
  | rumble (unknown left right : UInt8)
  | triggerEffects (typeLeft typeRight : UInt8) (left right : Bytes)
  | returned (err : ErrorCode)
  deriving DecidableEq

/-- What the code calls that is not modelled here: nanopb with the generated code, and the agreement on a secret
with the key of the session. -/
structure StreamConnectionLib where
  decode : Bytes → Option StreamMessage
  deriveSecret : Bytes → Bytes → Option Bytes
  handshakeKey : Bytes

/-- What the calls of a callback come to. -/
structure CallbackOutcome where
  strdup : Bool
  mallocSecret : Bool
  gkcryptLocal : Bool
  gkcryptRemote : Bool
  mallocHeader : Nat → Bool
  reallocHeader : Nat → Bool
  streaminfoAck : ErrorCode
  controllerConnection : ErrorCode
  microphone : ErrorCode

/-- A message with the key and the signature of a bang. -/
def StreamConnectionLib.decodeBang (lib : StreamConnectionLib) (buf : Bytes) :
    Option (StreamMessage × Bytes × Bytes) := do
  let msg ← lib.decode buf
  let ecdhPubKey ← pbDecodeBuf 128 (msg.bangPayload.elim [] (·.ecdhPubKey))
  let ecdhSig ← pbDecodeBuf 32 (msg.bangPayload.elim [] (·.ecdhSig))
  pure (msg, ecdhPubKey, ecdhSig)

/-- A message with the audio header and the profiles of a streaminfo. -/
def StreamConnectionLib.decodeStreaminfo (lib : StreamConnectionLib) (o : CallbackOutcome) (buf : Bytes) :
    Option (StreamMessage × Bytes × List VideoProfile) := do
  let msg ← lib.decode buf
  let audioHeader ← pbDecodeBuf audioHeaderSize (msg.streamInfoPayload.elim [] (·.audioHeader))
  let resolution := msg.streamInfoPayload.elim [] (·.resolution)
  let profiles ← resolution.foldlM (pbDecodeResolution o.mallocHeader o.reallocHeader) (0, [])
  pure (msg, audioHeader, profiles.2)

namespace StreamConnection

abbrev Result := StreamConnection × List StreamConnectionOut

/-- `chiaki_cond_signal` on `state_cond`. -/
def signal (s : StreamConnection) : StreamConnection := { s with runThread := s.runThread.signalled }

/-- `state_finished_cond_check`. -/
def condCheck (s : StreamConnection) : Bool := s.stateFinished || s.shouldStop || s.remoteDisconnected

def finish (s : StreamConnection) : StreamConnection := { s with stateFinished := true }.signal

def fail (s : StreamConnection) : StreamConnection := { s with stateFailed := true }.signal

/-! ## The callbacks of Takion -/

section Callbacks
variable (lib : StreamConnectionLib) (o : CallbackOutcome)

/-- `CHIAKI_TAKION_EVENT_TYPE_CONNECTED` and `CHIAKI_TAKION_EVENT_TYPE_DISCONNECT` in `stream_connection_takion_cb`. -/
def takionConnection (s : StreamConnection) (isConnected : Bool) : StreamConnection :=
  if s.state = .takionConnect then { s with stateFinished := isConnected, stateFailed := !isConnected }.signal else s

/-- `stream_connection_takion_data_handle_disconnect`. -/
def handleDisconnect (s : StreamConnection) (buf : Bytes) : StreamConnection :=
  match (lib.decode buf).bind fun msg => pbDecodeBuf 255 msg.disconnectReason with
  | none => s
  | some reason =>
      { s with
        remoteDisconnected := true
        remoteDisconnectReason := if o.strdup then some (reason.takeWhile (· ≠ 0)) else none }.signal

/-- `stream_connection_takion_data_idle`. -/
def takionDataIdle (s : StreamConnection) (buf : Bytes) : Checked Result :=
  match lib.decode buf with
  | none => pure (s, [])
  | some msg =>
      match msg.type with
      | .disconnect => pure (s.handleDisconnect lib o buf, [])
      | .connectionquality => do
          let _ ← deref s.videoReceiver
          pure (s, [])
      | _ => pure (s, [])

/-- `stream_connection_init_crypt`. -/
def initCrypt (s : StreamConnection) (secret : Bytes) : Result × Bool :=
  let gkcryptLocal : StreamKey := ⟨2, lib.handshakeKey, secret⟩
  let gkcryptRemote : StreamKey := ⟨3, lib.handshakeKey, secret⟩
  if !o.gkcryptLocal then (({ s with gkcryptLocal := none }, []), false)
  else if !o.gkcryptRemote then (({ s with gkcryptLocal := none, gkcryptRemote := none }, []), false)
  else
    (({ s with
        gkcryptLocal := some gkcryptLocal
        gkcryptRemote := some gkcryptRemote
        takionCrypt := some (gkcryptLocal, gkcryptRemote) },
      [.setCrypt gkcryptLocal gkcryptRemote]), true)

/-- `stream_connection_takion_data_expect_bang`. -/
def takionDataExpectBang (s : StreamConnection) (buf : Bytes) : Checked Result :=
  match lib.decodeBang buf with
  | none => pure (s, [])
  | some (msg, ecdhPubKey, ecdhSig) =>
      match (if msg.type = .bang then msg.bangPayload else none) with
      | none =>
          if msg.type = .disconnect then pure (s.handleDisconnect lib o buf, [])
          else pure (s, [])
      | some bang =>
          if !bang.versionAccepted then pure (s.fail, [])
          else if !bang.encryptedKeyAccepted then pure (s.fail, [])
          else if ecdhPubKey.length = 0 then pure (s.fail, [])
          else if ecdhSig.length = 0 then pure (s.fail, [])
          else do
            assert s.ecdhSecret.isNone
            if !o.mallocSecret then pure (s.fail, [])
            else
              match lib.deriveSecret ecdhPubKey ecdhSig with
              | none => pure (s.fail, [])
              | some secret =>
                  let r := { s with ecdhSecret := some secret }.initCrypt lib o secret
                  pure (if r.2 then r.1.1.finish else r.1.1.fail, r.1.2)

/-- `chiaki_video_receiver_stream_info`. The profiles are only taken once. -/
def videoReceiverStreamInfo (s : StreamConnection) (profiles : List VideoProfile) : Checked Result := do
  let old ← deref s.videoReceiver
  if old.length > 0 then pure (s, [])
  else if profiles.length > videoProfilesMax then .error .outOfBounds
  else pure ({ s with videoReceiver := some profiles }, [.videoStreamInfo profiles])

/-- The answers to a streaminfo message, up to the first one that cannot be sent. -/
def answers : List StreamConnectionOut × Bool :=
  let out := [.sent .streaminfoAck o.streaminfoAck, .sent .controllerConnection o.controllerConnection]
  if o.controllerConnection ≠ .success then (out, false)
  else (out ++ [.sent .microphone o.microphone], o.microphone = .success)

/-- `stream_connection_takion_data_expect_streaminfo`. -/
def takionDataExpectStreaminfo (s : StreamConnection) (buf : Bytes) : Checked Result :=
  match lib.decodeStreaminfo o buf with
  | none => pure (s, [])
  | some (msg, audioHeader, profiles) =>
      if msg.type ≠ .streaminfo ∨ msg.streamInfoPayload.isNone then
        if msg.type = .disconnect then pure (s.handleDisconnect lib o buf, [])
        else pure (s, [])
      else if audioHeader.length ≠ audioHeaderSize then pure (s.fail, [])
      else do
        let header ← AudioHeader.load audioHeader
        let _ ← deref s.audioReceiver
        let r ← s.videoReceiverStreamInfo profiles
        let outs := StreamConnectionOut.audioStreamInfo header :: r.2 ++ (answers o).1
        pure (if (answers o).2 then r.1.finish else r.1.fail, outs)

/-- `stream_connection_takion_data_protobuf`. -/
def takionDataProtobuf (s : StreamConnection) (buf : Bytes) : Checked Result :=
  match s.state with
  | .expectBang => s.takionDataExpectBang lib o buf
  | .expectStreaminfo => s.takionDataExpectStreaminfo lib o buf
  | _ => s.takionDataIdle lib o buf

end Callbacks

/-- `stream_connection_takion_data_rumble`. -/
def takionDataRumble (s : StreamConnection) (buf : Bytes) : Checked Result :=
  if buf.length < 3 then pure (s, [])
  else do
    let unknown ← inBounds buf[0]?
    let left ← inBounds buf[1]?
    let right ← inBounds buf[2]?
    pure (s, [.rumble unknown left right])

/-- `stream_connection_takion_data_trigger_effects`. -/
def takionDataTriggerEffects (s : StreamConnection) (buf : Bytes) : Checked Result :=
  if buf.length < 25 then pure (s, [])
  else do
    let typeLeft ← inBounds buf[1]?
    let typeRight ← inBounds buf[2]?
    let left := (buf.drop 5).take 10
    let right := (buf.drop 15).take 10
    if left.length < 10 ∨ right.length < 10 then .error .outOfBounds
    else pure (s, [.triggerEffects typeLeft typeRight left right])

/-- `stream_connection_takion_av`. -/
def takionAv (s : StreamConnection) (isVideo isHaptics : Bool) : Checked Result := do
  let _ ← deref s.gkcryptRemote
  if isVideo then do
    let _ ← deref s.videoReceiver
    pure (s, [.avPacket .video])
  else if isHaptics then do
    let _ ← deref s.hapticsReceiver
    pure (s, [.avPacket .haptics])
  else do
    let _ ← deref s.audioReceiver
    pure (s, [.avPacket .audio])

end StreamConnection
end Chiaki
