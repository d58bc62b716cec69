import Chiaki.Lib.Machine
import Chiaki.StreamConnection.Callbacks

/-!
# Running the stream connection

`chiaki_stream_connection_run` from one wait to the next, and the steps of all threads. A wait that finds its
condition true does not end a step. A step that has to wait for another thread does nothing.
-/

namespace Chiaki
open Machine

/-- The result of a call that no other thread ends. -/
abbrev CallResult := { err : ErrorCode // err ≠ .canceled ∧ err ≠ .disconnected }

/-- What the calls of `chiaki_stream_connection_run` come to. -/
structure RunOutcome where
  mallocSockaddr : Bool
  audioReceiver : Bool
  hapticsReceiver : Bool
  videoReceiver : Bool
  takionConnect : CallResult
  congestionControl : CallResult
  big : CallResult
  feedbackSender : CallResult
  heartbeat : CallResult
  disconnect : CallResult

inductive TakionDataType where
  | protobuf | rumble | triggerEffects | other
  deriving DecidableEq, Repr

inductive StreamConnectionOp where
  /-- The running thread goes on where it does not wait for the condition. -/
  | run (o : RunOutcome)
  /-- The running thread returns from waiting for the condition, which may be for no reason. -/
  | wake (timeout : Bool) (o : RunOutcome)
  /-- Takion is connected. -/
  | takionConnected
  /-- The thread of Takion ends. -/
  | takionDisconnect
  | data (type : TakionDataType) (buf : Bytes) (o : CallbackOutcome)
  | av (isVideo isHaptics : Bool)
  /-- `chiaki_stream_connection_stop` up to where it unlocks the mutex. -/
  | stop
  /-- The rest of it. -/
  | stopSignal
  /-- `chiaki_session_set_controller_state`. -/
  | setControllerState (state : ControllerState)

namespace StreamConnection

def await (s : StreamConnection) (state : StreamConnectionState) : StreamConnection :=
  { s with state := state, stateFinished := false, stateFailed := false }

/-- From `close_takion` up to where the thread of Takion is joined. -/
def closeTakion (s : StreamConnection) (err : ErrorCode) : Result := ({ s with runThread := .closing err }, [])

/-- From `err_congestion_control` on. -/
def stopCongestionControl (s : StreamConnection) (err : ErrorCode) : Result :=
  { s with congestionControl := false }.closeTakion err

/-- The result at `disconnect`. -/
def disconnectResult (s : StreamConnection) (err : ErrorCode) : ErrorCode :=
  if s.shouldStop then .canceled else if s.remoteDisconnected then .disconnected else err

/-- From `disconnect` on. -/
def disconnect (s : StreamConnection) (o : RunOutcome) (err : ErrorCode) : Result :=
  let r := s.stopCongestionControl (s.disconnectResult err)
  (r.1, .sent .disconnect o.disconnect :: r.2)

/-- After the loop that sends the heartbeats. -/
def heartbeatsDone (s : StreamConnection) (o : RunOutcome) : Result :=
  { s with feedbackSenderActive := false, feedbackSender := none }.disconnect o .success

/-- An iteration of that loop up to the wait. -/
def waitHeartbeat (s : StreamConnection) (o : RunOutcome) : Result :=
  if s.condCheck then s.heartbeatsDone o else ({ s with runThread := .waiting .heartbeat false }, [])

def sendHeartbeat (s : StreamConnection) (o : RunOutcome) : Result :=
  let r := s.waitHeartbeat o
  (r.1, .sent .heartbeat o.heartbeat :: r.2)

/-- After the wait for the streaminfo. -/
def streaminfoDone (s : StreamConnection) (o : RunOutcome) (err : ErrorCode) : Result :=
  if s.shouldStop then s.disconnect o err
  else if !s.stateFinished then s.disconnect o .unknown
  else if o.feedbackSender.1 ≠ .success then s.disconnect o o.feedbackSender
  else
    ({ s.await .idle with
        feedbackSender := some s.controllerState
        feedbackSenderActive := true
        runThread := .connected }, [])

def waitStreaminfo (s : StreamConnection) (o : RunOutcome) : Result :=
  if s.condCheck then s.streaminfoDone o .success else ({ s with runThread := .waiting .streaminfo false }, [])

/-- After the wait for the bang. -/
def bangDone (s : StreamConnection) (o : RunOutcome) (err : ErrorCode) : Result :=
  if s.shouldStop then s.disconnect o err
  else if !s.stateFinished then s.disconnect o .unknown
  else (s.await .expectStreaminfo).waitStreaminfo o

def waitBang (s : StreamConnection) (o : RunOutcome) : Result :=
  if s.condCheck then s.bangDone o .success else ({ s with runThread := .waiting .bang false }, [])

def sendBig (s : StreamConnection) (o : RunOutcome) : Result :=
  let s := s.await .expectBang
  let r := if o.big.1 ≠ .success then s.disconnect o o.big else s.waitBang o
  (r.1, .sent .big o.big :: r.2)

/-- After the wait for Takion. -/
def takionConnectDone (s : StreamConnection) (o : RunOutcome) (err : ErrorCode) : Result :=
  if s.shouldStop then s.closeTakion err
  else if err ≠ .success then s.stopCongestionControl err
  else s.sendBig o

def waitTakionConnect (s : StreamConnection) (o : RunOutcome) : Result :=
  if s.condCheck then s.takionConnectDone o .success
  else ({ s with runThread := .waiting .takionConnect false }, [])

/-- `chiaki_stream_connection_run` returns. -/
def ret (s : StreamConnection) (err : ErrorCode) : Result :=
  ({ s with audioReceiver := none, hapticsReceiver := none, videoReceiver := none, runThread := .returned err },
    [.returned err])

/-- The beginning of `chiaki_stream_connection_run`. It returns without unlocking the mutex if there is no memory for
a receiver. -/
def begin (s : StreamConnection) (o : RunOutcome) : Result :=
  if !o.mallocSockaddr then s.ret .memory
  else if !o.audioReceiver || !o.hapticsReceiver || !o.videoReceiver then { s with stateMutexHeld := true }.ret .unknown
  else
    let s := { s.await .takionConnect with
      audioReceiver := some (), hapticsReceiver := some (), videoReceiver := some [] }
    if o.takionConnect.1 ≠ .success then s.ret o.takionConnect
    else
      let s := { s with takionThread := .handshake }
      if o.congestionControl.1 ≠ .success then s.closeTakion o.congestionControl
      else { s with congestionControl := true }.waitTakionConnect o

/-- The running thread where it does not wait for the condition. -/
def stepRun (s : StreamConnection) (o : RunOutcome) : Result :=
  match s.runThread with
  | .start => s.begin o
  | .connected => ({ s with runThread := .notified }, [.connected])
  | .notified => s.waitHeartbeat o
  | .closing err => if s.takionThread = .ended then s.ret err else (s, [])
  | .waiting _ _ | .returned _ => (s, [])

/-- The running thread after a wait. -/
def resume (s : StreamConnection) (o : RunOutcome) (err : ErrorCode) : StreamWait → Result
  | .takionConnect => s.takionConnectDone o err
  | .bang => s.bangDone o err
  | .streaminfo => s.streaminfoDone o err
  | .heartbeat => if err = .timeout then s.sendHeartbeat o else s.heartbeatsDone o

/-- `chiaki_cond_timedwait_pred` goes on. After a timeout the condition is not checked again. -/
def stepWake (s : StreamConnection) (timeout : Bool) (o : RunOutcome) : Result :=
  match s.runThread with
  | .waiting wait _ =>
      if timeout then s.resume o .timeout wait
      else if s.condCheck then s.resume o .success wait
      else ({ s with runThread := .waiting wait false }, [])
  | _ => (s, [])

def stepData (lib : StreamConnectionLib) (s : StreamConnection) (type : TakionDataType) (buf : Bytes)
    (o : CallbackOutcome) : Checked Result :=
  if s.takionThread = .receiving then
    match type with
    | .protobuf => s.takionDataProtobuf lib o buf
    | .rumble => s.takionDataRumble buf
    | .triggerEffects => s.takionDataTriggerEffects buf
    | .other => pure (s, [])
  else pure (s, [])

def step (lib : StreamConnectionLib) (s : StreamConnection) : StreamConnectionOp → Checked Result
  | .run o => pure (s.stepRun o)
  | .wake timeout o => pure (s.stepWake timeout o)
  | .takionConnected =>
      if s.takionThread = .handshake then pure ({ s with takionThread := .receiving }.takionConnection true, [])
      else pure (s, [])
  | .takionDisconnect =>
      if s.takionThread = .handshake ∨ s.takionThread = .receiving then
        pure ({ s with takionThread := .ended }.takionConnection false, [])
      else pure (s, [])
  | .data type buf o => stepData lib s type buf o
  | .av isVideo isHaptics =>
      -- Takion keeps such a packet until it has been given the keys.
      if s.takionThread = .receiving ∧ s.takionCrypt.isSome then s.takionAv isVideo isHaptics else pure (s, [])
  | .stop =>
      if s.stateMutexHeld then pure (s, [])
      else pure ({ s with shouldStop := true, stopping := s.stopping + 1 }, [])
  | .stopSignal =>
      if s.stopping = 0 then pure (s, []) else pure ({ s with stopping := s.stopping - 1 }.signal, [])
  | .setControllerState state =>
      if s.feedbackSenderActive then do
        let _ ← deref s.feedbackSender
        pure ({ s with controllerState := state, feedbackSender := some state }, [])
      else pure ({ s with controllerState := state }, [])

/-- `chiaki_stream_connection_init`. -/
def init (controllerState : ControllerState) : StreamConnection := { controllerState := controllerState }

/-! ## What the other threads do -/

/-- The steps of all threads but the running one, one by one. -/
inductive Other (lib : StreamConnectionLib) (s : StreamConnection) (op : StreamConnectionOp) : Result → Prop
  | idle : Other lib s op (s, [])
  | takion (thread : StreamTakionThread) (isConnected : Bool)
      (begun : s.takionThread = .handshake ∨ s.takionThread = .receiving) :
      Other lib s op ({ s with takionThread := thread }.takionConnection isConnected, [])
  | disconnected (reason : Option Bytes) (receiving : s.takionThread = .receiving) :
      Other lib s op ({ s with remoteDisconnected := true, remoteDisconnectReason := reason }.signal, [])
  | failed : Other lib s op (s.fail, [])
  | unkeyed (secret : Bytes) (gkcryptRemote : Option StreamKey) (fresh : s.ecdhSecret = none) :
      Other lib s op
        ({ s with ecdhSecret := some secret, gkcryptLocal := none, gkcryptRemote := gkcryptRemote }.fail, [])
  | keyed (secret : Bytes) (receiving : s.takionThread = .receiving) (state : s.state = .expectBang)
      (fresh : s.ecdhSecret = none) :
      Other lib s op
        ({ s with
            ecdhSecret := some secret
            gkcryptLocal := some ⟨2, lib.handshakeKey, secret⟩
            gkcryptRemote := some ⟨3, lib.handshakeKey, secret⟩
            takionCrypt := some (⟨2, lib.handshakeKey, secret⟩, ⟨3, lib.handshakeKey, secret⟩) }.finish,
          [.setCrypt ⟨2, lib.handshakeKey, secret⟩ ⟨3, lib.handshakeKey, secret⟩])
  | answered (o : CallbackOutcome) (header : AudioHeader) (known : List VideoProfile) (told : List StreamConnectionOut)
      (receiving : s.takionThread = .receiving) (state : s.state = .expectStreaminfo)
      (video : told = [] ∨ ∃ profiles, told = [.videoStreamInfo profiles]) :
      Other lib s op
        (if (answers o).2 then { s with videoReceiver := some known }.finish
          else { s with videoReceiver := some known }.fail,
          .audioStreamInfo header :: told ++ (answers o).1)
  | rumble (unknown left right : UInt8) (receiving : s.takionThread = .receiving) :
      Other lib s op (s, [.rumble unknown left right])
  | triggerEffects (typeLeft typeRight : UInt8) (left right : Bytes) (receiving : s.takionThread = .receiving) :
      Other lib s op (s, [.triggerEffects typeLeft typeRight left right])
  | av (receiver : StreamReceiver) (receiving : s.takionThread = .receiving) (keyed : s.takionCrypt.isSome = true) :
      Other lib s op (s, [.avPacket receiver])
  | stop (told : op = .stop) : Other lib s op ({ s with shouldStop := true, stopping := s.stopping + 1 }, [])
  | stopSignal : Other lib s op ({ s with stopping := s.stopping - 1 }.signal, [])
  | setControllerState (state : ControllerState) (sender : Option ControllerState)
      (given : s.feedbackSenderActive = true → sender = some state) :
      Other lib s op ({ s with controllerState := state, feedbackSender := sender }, [])

section Inversion
variable {lib : StreamConnectionLib} {s : StreamConnection} {op : StreamConnectionOp} {o : CallbackOutcome}
  {buf : Bytes} {r : Result}

theorem handleDisconnect_other (receiving : s.takionThread = .receiving) (o : CallbackOutcome) (buf : Bytes) :
    Other lib s op (s.handleDisconnect lib o buf, []) := by
  unfold handleDisconnect
  cases (lib.decode buf).bind fun msg => pbDecodeBuf 255 msg.disconnectReason with
  | none => exact .idle
  | some reason => exact .disconnected _ receiving

theorem takionDataIdle_other (receiving : s.takionThread = .receiving) (done : s.takionDataIdle lib o buf = .ok r) :
    Other lib s op r := by
  unfold takionDataIdle at done
  split at done
  · cases done
    exact .idle
  · split at done
    · cases done
      exact handleDisconnect_other receiving o buf
    · obtain ⟨_, -, done⟩ := bind_eq_ok done
      cases done
      exact .idle
    · cases done
      exact .idle

theorem initCrypt_other (secret : Bytes) (receiving : s.takionThread = .receiving) (state : s.state = .expectBang)
    (fresh : s.ecdhSecret = none) :
    let r := { s with ecdhSecret := some secret }.initCrypt lib o secret
    Other lib s op (if r.2 then r.1.1.finish else r.1.1.fail, r.1.2) := by
  unfold initCrypt
  cases o.gkcryptLocal with
  | false => exact .unkeyed secret s.gkcryptRemote fresh
  | true =>
      cases o.gkcryptRemote with
      | false => exact .unkeyed secret none fresh
      | true => exact .keyed secret receiving state fresh

theorem takionDataExpectBang_other (receiving : s.takionThread = .receiving) (state : s.state = .expectBang)
    (done : s.takionDataExpectBang lib o buf = .ok r) : Other lib s op r := by
  unfold takionDataExpectBang at done
  split at done
  case h_1 =>
    cases done
    exact .idle
  case h_2 msg ecdhPubKey ecdhSig _ =>
    split at done
    case h_1 =>
      split at done
      · cases done
        exact handleDisconnect_other receiving o buf
      · cases done
        exact .idle
    case h_2 bang _ =>
      iterate 4
        split at done
        · cases done
          exact .failed
      obtain ⟨_, fresh, done⟩ := bind_eq_ok done
      have unset : s.ecdhSecret = none := by
        cases secret : s.ecdhSecret with
        | none => rfl
        | some secret =>
            rw [secret] at fresh
            cases fresh
      split at done
      · cases done
        exact .failed
      · split at done
        · cases done
          exact .failed
        · cases done
          exact initCrypt_other _ receiving state unset

theorem videoReceiverStreamInfo_ok {profiles : List VideoProfile}
    (done : s.videoReceiverStreamInfo profiles = .ok r) :
    (∃ known, r.1 = { s with videoReceiver := some known }) ∧ (r.2 = [] ∨ ∃ given, r.2 = [.videoStreamInfo given]) := by
  unfold videoReceiverStreamInfo at done
  obtain ⟨old, there, done⟩ := bind_eq_ok done
  split at done
  · cases done
    cases known : s.videoReceiver with
    | none =>
        rw [known] at there
        cases there
    | some known' => exact ⟨⟨known', by rw [← known]⟩, .inl rfl⟩
  · split at done
    · cases done
    · cases done
      exact ⟨⟨profiles, rfl⟩, .inr ⟨profiles, rfl⟩⟩

theorem takionDataExpectStreaminfo_other (receiving : s.takionThread = .receiving)
    (state : s.state = .expectStreaminfo) (done : s.takionDataExpectStreaminfo lib o buf = .ok r) :
    Other lib s op r := by
  unfold takionDataExpectStreaminfo at done
  split at done
  case h_1 =>
    cases done
    exact .idle
  case h_2 msg audioHeader profiles _ =>
    split at done
    · split at done
      · cases done
        exact handleDisconnect_other receiving o buf
      · cases done
        exact .idle
    · split at done
      · cases done
        exact .failed
      · obtain ⟨header, -, done⟩ := bind_eq_ok done
        obtain ⟨_, -, done⟩ := bind_eq_ok done
        obtain ⟨given, taken, done⟩ := bind_eq_ok done
        cases done
        obtain ⟨⟨known, told⟩, video⟩ := videoReceiverStreamInfo_ok taken
        rw [told]
        exact .answered o header known given.2 receiving state video

theorem takionDataRumble_other (receiving : s.takionThread = .receiving) (done : s.takionDataRumble buf = .ok r) :
    Other lib s op r := by
  unfold takionDataRumble at done
  split at done
  · cases done
    exact .idle
  · iterate 3 obtain ⟨_, -, done⟩ := bind_eq_ok done
    cases done
    exact .rumble _ _ _ receiving

theorem takionDataTriggerEffects_other (receiving : s.takionThread = .receiving)
    (done : s.takionDataTriggerEffects buf = .ok r) : Other lib s op r := by
  unfold takionDataTriggerEffects at done
  split at done
  · cases done
    exact .idle
  · iterate 2 obtain ⟨_, -, done⟩ := bind_eq_ok done
    dsimp only at done
    split at done
    · cases done
    · cases done
      exact .triggerEffects _ _ _ _ receiving

theorem takionAv_other {isVideo isHaptics : Bool} (receiving : s.takionThread = .receiving)
    (keyed : s.takionCrypt.isSome = true) (done : s.takionAv isVideo isHaptics = .ok r) : Other lib s op r := by
  unfold takionAv at done
  obtain ⟨_, -, done⟩ := bind_eq_ok done
  split at done
  · obtain ⟨_, -, done⟩ := bind_eq_ok done
    cases done
    exact .av .video receiving keyed
  · split at done
    · obtain ⟨_, -, done⟩ := bind_eq_ok done
      cases done
      exact .av .haptics receiving keyed
    · obtain ⟨_, -, done⟩ := bind_eq_ok done
      cases done
      exact .av .audio receiving keyed

theorem stepData_other {type : TakionDataType} (done : stepData lib s type buf o = .ok r) : Other lib s op r := by
  unfold stepData at done
  split at done
  case isFalse =>
    cases done
    exact .idle
  case isTrue receiving =>
    cases type with
    | protobuf =>
        dsimp only [takionDataProtobuf] at done
        cases state : s.state with
        | expectBang =>
            rw [state] at done
            exact takionDataExpectBang_other receiving state done
        | expectStreaminfo =>
            rw [state] at done
            exact takionDataExpectStreaminfo_other receiving state done
        | _ =>
            rw [state] at done
            exact takionDataIdle_other receiving done
    | rumble => exact takionDataRumble_other receiving done
    | triggerEffects => exact takionDataTriggerEffects_other receiving done
    | other =>
        cases done
        exact .idle

/-- A step is one of the running thread or of the others. -/
theorem step_cases (done : step lib s op = .ok r) :
    (∃ o, op = .run o ∧ r = s.stepRun o) ∨ (∃ timeout o, op = .wake timeout o ∧ r = s.stepWake timeout o) ∨
      ((∀ o, op ≠ .run o) ∧ (∀ timeout o, op ≠ .wake timeout o) ∧ Other lib s op r) := by
  have other (notRun : ∀ o, op ≠ .run o) (notWake : ∀ timeout o, op ≠ .wake timeout o) (others : Other lib s op r) :
      (∃ o, op = .run o ∧ r = s.stepRun o) ∨ (∃ timeout o, op = .wake timeout o ∧ r = s.stepWake timeout o) ∨
        ((∀ o, op ≠ .run o) ∧ (∀ timeout o, op ≠ .wake timeout o) ∧ Other lib s op r) :=
    .inr (.inr ⟨notRun, notWake, others⟩)
  cases op with
  | run o =>
      cases done
      exact .inl ⟨o, rfl, rfl⟩
  | wake timeout o =>
      cases done
      exact .inr (.inl ⟨timeout, o, rfl, rfl⟩)
  | takionConnected =>
      simp only [step] at done
      split at done
      case isTrue begun =>
        cases done
        exact other (by simp) (by simp) (.takion .receiving true (.inl begun))
      case isFalse =>
        cases done
        exact other (by simp) (by simp) .idle
  | takionDisconnect =>
      simp only [step] at done
      split at done
      case isTrue begun =>
        cases done
        exact other (by simp) (by simp) (.takion .ended false begun)
      case isFalse =>
        cases done
        exact other (by simp) (by simp) .idle
  | data type buf o => exact other (by simp) (by simp) (stepData_other done)
  | av isVideo isHaptics =>
      simp only [step] at done
      split at done
      case isTrue ready => exact other (by simp) (by simp) (takionAv_other ready.1 ready.2 done)
      case isFalse =>
        cases done
        exact other (by simp) (by simp) .idle
  | stop =>
      simp only [step] at done
      split at done
      · cases done
        exact other (by simp) (by simp) .idle
      · cases done
        exact other (by simp) (by simp) (.stop rfl)
  | stopSignal =>
      simp only [step] at done
      split at done
      · cases done
        exact other (by simp) (by simp) .idle
      · cases done
        exact other (by simp) (by simp) .stopSignal
  | setControllerState state =>
      simp only [step] at done
      split at done
      case isTrue active =>
        obtain ⟨_, -, done⟩ := bind_eq_ok done
        cases done
        exact other (by simp) (by simp) (.setControllerState state (some state) fun _ => rfl)
      case isFalse inactive =>
        cases done
        refine other (by simp) (by simp) (.setControllerState state s.feedbackSender fun active => ?_)
        exact absurd active inactive

end Inversion

end StreamConnection
end Chiaki
