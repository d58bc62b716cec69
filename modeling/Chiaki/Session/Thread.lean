import Chiaki.Session.Request
import Chiaki.StreamConnection.Run

/-!
# The threads of a session

`session_thread_func` with the threads it starts, `ctrl_thread_func` and that of the registration, and the calls of
the application. A thread takes one step from one of its points to the next. A step that has to wait for a mutex or
for the end of another thread does nothing.
-/

namespace Chiaki
open Machine

inductive AddressFamily where
  | inet | inet6 | other
  deriving DecidableEq, Repr

/-- The calls of `chiaki_cond_timedwait_pred`, in the order of the function. -/
inductive SessionWait where
  | regist | settle | ctrlStart | pin | pinReply | holepunch | switch
  deriving DecidableEq, Repr

/-- Where `session_thread_func` is. The requests for a session are numbered. -/
inductive SessionThread where
  | start
  | begun
  /-- In `chiaki_regist_fini`. -/
  | registJoin
  | registered
  | request (attempt : Nat)
  | connectNext (attempt : Nat) (addrinfos : List AddressFamily)
  /-- In `chiaki_stop_pipe_connect`. -/
  | connecting (attempt : Nat) (addrinfos : List AddressFamily)
  | send (attempt : Nat)
  /-- In `chiaki_recv_http_header` or `chiaki_send_recv_http_header_psn`. -/
  | receiving (attempt : Nat)
  | requestDone (attempt : Nat) (err : ErrorCode)
  /-- About to check the condition of a wait. -/
  | check (wait : SessionWait)
  | waiting (wait : SessionWait)
  | done (wait : SessionWait)
  | pinLoop
  /-- In `chiaki_ctrl_set_login_pin`. -/
  | forwarding
  | punchHole
  | punched
  | sessionId
  /-- In `ctrl_message_set_fallback_session_id`. -/
  | fallback
  | fallbackSet
  | fallbackDone (err : ErrorCode)
  | ctrlFailed
  | senkusha
  | switch
  | startStream
  /-- In `chiaki_stream_connection_run`. -/
  | streaming
  | ctrlStop
  | ctrlJoin
  | quitting
  | ended
  deriving DecidableEq

/-- Whether `state_mutex` is locked there. -/
def SessionThread.holds : SessionThread → Bool
  | start | connecting _ _ | receiving _ | waiting _ | fallback | fallbackSet | fallbackDone _ | streaming
  | ctrlStop | ctrlJoin | quitting | ended => false
  | _ => true

/-- What the ctrl thread writes to the session. -/
inductive CtrlNotice where
  | sessionId | loginPinRequest | switchReceived
  | failed (reason : QuitReason)
  deriving DecidableEq, Repr

/-- What the ctrl thread does after that. -/
inductive CtrlThen where
  | goOn | connectFailed | leave
  deriving DecidableEq, Repr

/-- Where `ctrl_thread_func` is. -/
inductive SessionCtrlThread where
  | none
  | starting
  /-- In `chiaki_stop_pipe_connect`. -/
  | connecting
  | busy
  /-- About to lock `state_mutex`. -/
  | sharing (notice : CtrlNotice) (next : CtrlThen)
  | selecting
  | ended
  deriving DecidableEq

/-- Whether `notif_mutex` is locked there. -/
def SessionCtrlThread.holds : SessionCtrlThread → Bool
  | busy | sharing _ _ => true
  | _ => false

/-- The thread of `chiaki_regist_start`. It calls `regist_cb` last. -/
inductive SessionRegistThread where
  | none | running
  | sharing (success : Bool)
  | ended
  deriving DecidableEq

/-- A call of `chiaki_session_stop`, which locks `state_mutex` first. -/
inductive StopCall where
  | none
  /-- In `chiaki_stream_connection_stop`, before it has locked the mutex of the stream connection. -/
  | locked
  /-- Behind that. -/
  | signalling
  deriving DecidableEq

/-- A copy of a PIN: its own number, that of the call that entered it, and the PIN. -/
structure LoginPin where
  buffer : Nat
  entry : Nat
  pin : Bytes
  deriving DecidableEq

/-- `ChiakiCtrl`. -/
structure SessionCtrl where
  thread : SessionCtrlThread := .none
  shouldStop : Bool := false
  loginPinEntered : Bool := false
  loginPinRequested : Bool := false
  loginPin : Option LoginPin := none
  /-- Whether `notif_pipe` is signalled. -/
  notifPipe : Bool := false

/-- What does not change during a session. -/
structure SessionConfig where
  lib : StreamConnectionLib
  charSigned : Bool
  ps5 : Bool
  /-- There is a `holepunch_session`. -/
  holepunchSession : Bool
  hostAddrinfos : List AddressFamily

/-- `ChiakiSession`. -/
structure Session where
  thread : SessionThread := .start
  stopCall : StopCall := .none
  shouldStop : Bool := false
  /-- Whether `stop_pipe` is signalled. -/
  stopPipe : Bool := false
  ctrlFailed : Bool := false
  ctrlSessionIdReceived : Bool := false
  ctrlLoginPinRequested : Bool := false
  loginPinEntered : Bool := false
  loginPin : Option LoginPin := none
  psnRegistSucceeded : Bool := false
  streamConnectionSwitchReceived : Bool := false
  quitReason : QuitReason := .none
  quitReasonStr : Option Bytes := none
  target : Target
  /-- The variable of `session_thread_func`. -/
  serverTarget : Target := .ps4Unknown
  pinIncorrect : Bool := false
  /-- There is a `rudp`. -/
  rudp : Bool := false
  hostname : Bytes := []
  registKey : Bytes
  nonce : Bytes
  mtuIn : Nat := 0
  mtuOut : Nat := 0
  rttUs : Nat := 0
  registThread : SessionRegistThread := .none
  ctrl : SessionCtrl := {}
  stream : StreamConnection
  /-- The buffers that were allocated for PINs, and the PINs that were entered. -/
  buffers : Nat := 0
  entries : Nat := 0

inductive SessionEvent where
  | nicknameReceived (nickname : Bytes)
  | loginPinRequest (pinIncorrect : Bool)
  | holepunch (finished : Bool)
  | keyboardOpen (text : Option Bytes)
  | keyboardTextChange (text : Option Bytes)
  | keyboardRemoteClose
  | quit (reason : QuitReason) (reasonStr : Option Bytes)
  deriving DecidableEq

/-- What the application and the console see of a session, and what happens to the buffers of the PINs. -/
inductive SessionOut where
  | event (event : SessionEvent)
  | request (attempt : Nat) (target : Target) (text : Bytes)
  | stream (out : StreamConnectionOut)
  | pinEntered (pin : LoginPin)
  | pinSent (pin : LoginPin)
  | allocated (buffer : Nat)
  | freed (buffer : Nat)
  deriving DecidableEq

/-- The result of a part of a request over the network. -/
abbrev RequestResult := { err : ErrorCode // err ≠ .canceled ∧ err ≠ .versionMismatch }

/-- What the calls of `session_thread_func` come to. -/
structure SessionOutcome where
  rudpInstance : Bool
  rudpInit : RequestResult
  rudpCookie : RequestResult
  mallocSockaddr : Bool
  getnameinfo : Option Bytes
  socket : Bool
  /-- `chiaki_stop_pipe_connect` or `chiaki_recv_http_header` looks at the stop pipe first. -/
  looksAtStopPipe : Bool
  connect : RequestResult
  holepunchAddr : Bytes
  holepunchPort : Nat
  send : Bool
  recv : RequestResult
  rudpFinish : RequestResult
  response : Option HttpResponse
  ctrlThread : Bool
  mallocPin : Bool
  punchHole : Bool
  /-- Of the parts of `ctrl_message_set_fallback_session_id` that can fail. -/
  fallback : ErrorCode
  senkushaInit : Bool
  /-- The MTUs and the round trip time, if they can be measured. -/
  senkusha : Option (Nat × Nat × Nat)
  sendSwitch : Bool
  randomBytes : Bool
  ecdhInit : Bool
  strdup : Bool

/-- How `ctrl_connect` begins. -/
inductive CtrlConnect where
  | failed | noSocket
  /-- It waits for the connection; over RUDP, it is done. -/
  | goesOn
  deriving DecidableEq

/-- The messages of the console that `ctrl_message_received` tells apart here. `accepted` is whether there is a
session id to set, from the message or a fallback. -/
inductive CtrlContent where
  | sessionId (accepted : Bool)
  | loginPinRequest
  | login (state : UInt8)
  | switchAck
  | keyboardOpen (text : Option Bytes)
  | keyboardTextChange (text : Option Bytes)
  | keyboardRemoteClose
  | other
  deriving DecidableEq

/-- What `ctrl_thread_func` finds after it has waited. -/
inductive CtrlSelect where
  /-- The pipe is signalled. `sent` is whether there was a message in the queue. -/
  | canceled (sent : Bool)
  | error
  | closed
  | recvFailed
  | rudpFinish
  | received
  deriving DecidableEq

inductive SessionCtrlOp where
  | enter (connect : CtrlConnect)
  /-- The connection is there or not, and so is the answer to the request. -/
  | connected (connect : ErrorCode) (answered : Bool)
  | message (content : CtrlContent)
  | overflow
  | select
  | selected (result : CtrlSelect)
  | share
  deriving DecidableEq

inductive SessionOp where
  /-- `session_thread_func` goes on. -/
  | run (o : SessionOutcome)
  /-- `pthread_cond_timedwait` returns, which may be for no reason. -/
  | wake (timeout : Bool)
  | ctrl (op : SessionCtrlOp)
  /-- The registration is over. -/
  | regist (success : Bool) (nickname registKey : Bytes)
  | registShare
  /-- `chiaki_stream_connection_run` and the thread of Takion. -/
  | stream (op : StreamConnectionOp)
  /-- `chiaki_session_stop`, up to where it calls `chiaki_stream_connection_stop`. -/
  | stop
  | stopStream
  | stopSignal
  /-- `chiaki_session_set_login_pin`. -/
  | setLoginPin (pin : Bytes) (malloc : Bool)
  | setControllerState (state : ControllerState)
  /-- `chiaki_ctrl_send_message` signals `notif_pipe`. -/
  | ctrlNotified

/-- The reason, or another one if there is none yet. -/
def QuitReason.orElse (reason other : QuitReason) : QuitReason := if reason = .none then other else reason

namespace Session

abbrev Result := Session × List SessionOut

def goto (s : Session) (thread : SessionThread) : Session := { s with thread := thread }

def go (s : Session) (thread : SessionThread) : Result := (s.goto thread, [])

/-- The predicates of the waits. -/
def condition (s : Session) : SessionWait → Bool
  | .regist => s.shouldStop || s.ctrlFailed || s.psnRegistSucceeded
  | .settle => s.shouldStop || s.ctrlFailed
  | .ctrlStart | .pinReply | .holepunch =>
      s.shouldStop || s.ctrlFailed || s.ctrlSessionIdReceived || s.ctrlLoginPinRequested
  | .pin => s.shouldStop || s.ctrlFailed || s.loginPinEntered
  | .switch => s.shouldStop || s.ctrlFailed || s.streamConnectionSwitchReceived

/-- `CHECK_STOP` in front of `next`. -/
def checkStop (s : Session) (quit : SessionThread) (next : Result) : Result :=
  if s.shouldStop then ({ s with quitReason := .stopped }.goto quit, []) else next

/-! ## The thread of the session -/

def begin (cfg : SessionConfig) (s : Session) (o : SessionOutcome) : Result :=
  s.checkStop .quitting
    (if cfg.holepunchSession && o.rudpInstance then
      ({ s with rudp := true, registThread := .running }.goto (.check .regist), [])
    else s.go (.request 1))

def beginRequest (cfg : SessionConfig) (s : Session) (o : SessionOutcome) (attempt : Nat) : Result :=
  if s.rudp then
    if o.rudpInit.1 ≠ .success then s.go (.requestDone attempt o.rudpInit)
    else if o.rudpCookie.1 ≠ .success then s.go (.requestDone attempt o.rudpCookie)
    else s.go (.send attempt)
  else s.go (.connectNext attempt cfg.hostAddrinfos)

/-- An address of the host, up to where the function waits for the connection. -/
def connectNext (s : Session) (o : SessionOutcome) (attempt : Nat) : List AddressFamily → Result
  | [] =>
      ({ s with quitReason := s.quitReason.orElse .sessionRequestUnknown }.goto (.requestDone attempt .network), [])
  | ai :: rest =>
      if !o.mallocSockaddr || ai = .other then s.go (.connectNext attempt rest)
      else
        let s := { s with hostname := o.getnameinfo.getD (text "unknown") }
        s.go (if o.socket then .connecting attempt rest else .connectNext attempt rest)

def connected (s : Session) (o : SessionOutcome) (attempt : Nat) (rest : List AddressFamily) : Result :=
  if s.stopPipe && o.looksAtStopPipe then
    ({ s with quitReason := .stopped }.goto (.requestDone attempt .network), [])
  else if o.connect.1 = .connectionRefused then
    ({ s with quitReason := .sessionRequestConnectionRefused }.goto (.connectNext attempt rest), [])
  else if o.connect.1 ≠ .success then ({ s with quitReason := .none }.goto (.connectNext attempt rest), [])
  else s.go (.send attempt)

/-- A request fails for a reason that the console has not given. -/
def requestFailed (s : Session) (attempt : Nat) (err : ErrorCode) : Result :=
  ({ s with quitReason := .sessionRequestUnknown }.goto (.requestDone attempt err), [])

def sendRequest (cfg : SessionConfig) (s : Session) (o : SessionOutcome) (attempt : Nat) : Checked Result := do
  let s := if cfg.holepunchSession then { s with hostname := o.holepunchAddr } else s
  let port := if cfg.holepunchSession then o.holepunchPort else sessionPort
  match ← sessionRequest s.target s.hostname port s.registKey with
  | .error err => pure (s.requestFailed attempt err)
  | .ok request =>
      if !s.rudp && !o.send then pure (s.requestFailed attempt .network)
      else pure (s.goto (.receiving attempt), [.request attempt s.target request])

/-- Only the first two requests have a `target_out`. -/
def received (cfg : SessionConfig) (s : Session) (o : SessionOutcome) (attempt : Nat) : Checked Result :=
  if !s.rudp && s.stopPipe && o.looksAtStopPipe then
    pure ({ s with quitReason := .stopped }.goto (.requestDone attempt .network), [])
  else if o.recv.1 ≠ .success then pure (s.requestFailed attempt .network)
  else if s.rudp && o.rudpFinish.1 ≠ .success then pure (s.go (.requestDone attempt o.rudpFinish))
  else
    match o.response with
    | none => pure (s.requestFailed attempt .network)
    | some http => do
        let rpVersion ← deref (rpVersionString s.target)
        let answer ← sessionAnswer cfg.charSigned rpVersion cfg.ps5 (attempt < 3) s.nonce http
        pure ({ s with
          quitReason := answer.quitReason.getD s.quitReason
          serverTarget := answer.target.getD s.serverTarget
          nonce := answer.nonce.getD s.nonce }.goto (.requestDone attempt answer.err), [])

/-- `session_thread_func` behind a request. -/
def requestDone (s : Session) (attempt : Nat) (err : ErrorCode) : Result :=
  if attempt < 3 ∧ err = .versionMismatch ∧ s.serverTarget.isUnknown = false then
    ({ s with target := s.serverTarget }.goto (.request (attempt + 1)), [])
  else if err ≠ .success then s.go .quitting
  else s.go (.check .settle)

def startCtrl (s : Session) (o : SessionOutcome) : Result :=
  if o.ctrlThread then ({ s with ctrl := { s.ctrl with thread := .starting } }.goto (.check .ctrlStart), [])
  else s.go .quitting

/-- Behind a wait. -/
def waited (s : Session) (o : SessionOutcome) : SessionWait → Checked Result
  | .regist => pure (s.go .registJoin)
  | .settle => pure (s.startCtrl o)
  | .ctrlStart => pure (s.checkStop .ctrlStop (s.go (if s.ctrlFailed then .ctrlFailed else .pinLoop)))
  | .pin =>
      if s.shouldStop then pure ({ s with quitReason := .stopped }.goto .ctrlStop, [])
      else if s.ctrlFailed then pure (s.go .ctrlFailed)
      else do
        assert (s.loginPinEntered && s.loginPin.isSome)
        pure (s.go .forwarding)
  | .pinReply => pure (s.checkStop .ctrlStop (s.go .pinLoop))
  | .holepunch => pure (s.checkStop .ctrlStop (s.go .sessionId))
  | .switch =>
      if !s.streamConnectionSwitchReceived then pure (s.go .ctrlStop)
      else pure (s.checkStop .ctrlStop (s.go .startStream))

def pinLoop (s : Session) : Result :=
  if s.ctrlLoginPinRequested then
    ({ s with ctrlLoginPinRequested := false, pinIncorrect := true }.goto (.check .pin),
      [.event (.loginPinRequest s.pinIncorrect)])
  else s.go .punchHole

/-- `free`. -/
def freePin : Option LoginPin → List SessionOut
  | some pin => [.freed pin.buffer]
  | none => []

/-- `chiaki_ctrl_set_login_pin`. -/
def ctrlSetLoginPin (s : Session) (malloc : Bool) (pin : LoginPin) : Result :=
  if !malloc then (s, [])
  else
    ({ s with
        buffers := s.buffers + 1
        ctrl := { s.ctrl with
          loginPinEntered := true, loginPin := some { pin with buffer := s.buffers }, notifPipe := true } },
      .allocated s.buffers :: (if s.ctrl.loginPinEntered then freePin s.ctrl.loginPin else []))

def forward (s : Session) (o : SessionOutcome) : Checked Result := do
  let pin ← deref s.loginPin
  let r := s.ctrlSetLoginPin o.mallocPin pin
  pure ({ r.1 with loginPinEntered := false, loginPin := none }.goto (.check .pinReply), r.2 ++ freePin s.loginPin)

def punchHole (s : Session) : Result :=
  if s.rudp then (s.goto .punched, [.event (.holepunch false)]) else s.go .sessionId

def punched (s : Session) (o : SessionOutcome) : Result :=
  if o.punchHole then (s.goto (.check .holepunch), [.event (.holepunch true)]) else s.go .ctrlStop

/-- `ctrl_message_set_fallback_session_id` up to where it locks `state_mutex`. -/
def fallback (s : Session) (o : SessionOutcome) : Result :=
  if o.fallback ≠ .success then s.go (.fallbackDone o.fallback)
  else if s.ctrlSessionIdReceived then s.go (.fallbackDone .success)
  else s.go .fallbackSet

def ctrlHasFailed (s : Session) : Result :=
  ({ s with quitReason := s.quitReason.orElse .ctrlUnknown }.goto .ctrlStop, [])

/-- `chiaki_senkusha_run` is never canceled: nothing sets its `should_stop`. -/
def senkusha (s : Session) (o : SessionOutcome) : Result :=
  if !o.senkushaInit then s.go .ctrlStop
  else
    let measured := o.senkusha.getD (1454, 1454, 1000)
    ({ s with mtuIn := measured.1, mtuOut := measured.2.1, rttUs := measured.2.2 }.goto
      (if s.rudp then .switch else .startStream), [])

/-- `chiaki_stream_connection_run` has returned. -/
def streamDone (s : Session) (o : SessionOutcome) (err : ErrorCode) : Checked Result :=
  if err = .disconnected then do
    let reason ← deref s.stream.remoteDisconnectReason
    pure ({ s with
      quitReason := if reason = text "Server shutting down" then .streamConnectionRemoteShutdown
        else .streamConnectionRemoteDisconnected
      quitReasonStr := if o.strdup then some reason else none }.goto .ctrlStop, [])
  else if err ≠ .success ∧ err ≠ .canceled then
    pure ({ s with quitReason := .streamConnectionUnknown }.goto .ctrlStop, [])
  else pure ({ s with quitReason := .stopped }.goto .ctrlStop, [])

/-- The thread has locked `state_mutex`, or it goes on with it. -/
def runLocked (cfg : SessionConfig) (s : Session) (o : SessionOutcome) : Checked Result :=
  match s.thread with
  | .start => pure (s.go .begun)
  | .begun => pure (s.begin cfg o)
  | .registJoin => pure (if s.registThread = .ended then s.go .registered else (s, []))
  | .registered => pure (s.checkStop .quitting (s.go (.request 1)))
  | .request attempt => pure (s.beginRequest cfg o attempt)
  | .connectNext attempt addrinfos => pure (s.connectNext o attempt addrinfos)
  | .connecting attempt rest => pure (s.connected o attempt rest)
  | .send attempt => s.sendRequest cfg o attempt
  | .receiving attempt => s.received cfg o attempt
  | .requestDone attempt err => pure (s.requestDone attempt err)
  | .check wait => pure (s.go (if s.condition wait then .done wait else .waiting wait))
  | .done wait => s.waited o wait
  | .pinLoop => pure s.pinLoop
  | .forwarding => if s.ctrl.thread.holds then pure (s, []) else s.forward o
  | .punchHole => pure s.punchHole
  | .punched => pure (s.punched o)
  | .sessionId => pure (s.go (if s.ctrlSessionIdReceived then .senkusha else .fallback))
  | .fallbackSet => pure ({ s with ctrlSessionIdReceived := true }.go (.fallbackDone .success))
  | .fallbackDone err =>
      pure (s.go (if err ≠ .success ∨ s.ctrlSessionIdReceived = false then .ctrlFailed else .senkusha))
  | .ctrlFailed => pure s.ctrlHasFailed
  | .senkusha => pure (s.senkusha o)
  | .switch => pure (s.go (if o.sendSwitch then .check .switch else .ctrlStop))
  | .startStream => pure (s.go (if o.randomBytes && o.ecdhInit then .streaming else .ctrlStop))
  | .streaming =>
      match s.stream.runThread with
      | .returned err => s.streamDone o err
      | _ => pure (s, [])
  | .waiting _ | .fallback | .ctrlStop | .ctrlJoin | .quitting | .ended => pure (s, [])

def stepRun (cfg : SessionConfig) (s : Session) (o : SessionOutcome) : Checked Result :=
  match s.thread with
  | .fallback => pure (s.fallback o)
  | .ctrlStop =>
      if s.ctrl.thread.holds then pure (s, [])
      else pure ({ s with ctrl := { s.ctrl with shouldStop := true, notifPipe := true } }.go .ctrlJoin)
  | .ctrlJoin => if s.ctrl.thread = .ended then pure (s.go .quitting) else pure (s, [])
  | .quitting => pure (s.goto .ended, [.event (.quit s.quitReason s.quitReasonStr)])
  | _ => if s.stopCall = .none then s.runLocked cfg o else pure (s, [])

/-- Only the wait for a PIN has no timeout. -/
def stepWake (s : Session) (timeout : Bool) : Result :=
  match s.thread with
  | .waiting wait =>
      if s.stopCall ≠ .none then (s, [])
      else if timeout && wait ≠ .pin then s.go (.done wait)
      else s.go (.check wait)
  | _ => (s, [])

/-! ## The thread of ctrl -/

def mutexFree (s : Session) : Bool := s.stopCall = .none && !s.thread.holds

def setCtrl (s : Session) (thread : SessionCtrlThread) : Result :=
  ({ s with ctrl := { s.ctrl with thread := thread } }, [])

def share (s : Session) (notice : CtrlNotice) (next : CtrlThen) : Result := s.setCtrl (.sharing notice next)

/-- `ctrl_failed`. -/
def failCtrl (s : Session) (reason : QuitReason) (next : CtrlThen) : Result := s.share (.failed reason) next

def enterCtrl (s : Session) : CtrlConnect → Result
  | .failed => s.failCtrl .ctrlConnectFailed .leave
  | .noSocket => if s.rudp then s.failCtrl .ctrlConnectFailed .leave else s.failCtrl .ctrlUnknown .connectFailed
  | .goesOn => s.setCtrl (if s.rudp then .busy else .connecting)

def ctrlConnected (s : Session) (connect : ErrorCode) (answered : Bool) : Result :=
  if connect = .canceled then if s.ctrl.notifPipe then s.failCtrl .ctrlConnectFailed .leave else (s, [])
  else if connect = .connectionRefused then s.failCtrl .ctrlConnectionRefused .connectFailed
  else if connect ≠ .success then s.failCtrl .ctrlUnknown .connectFailed
  else if answered then s.setCtrl .busy
  else s.failCtrl .ctrlConnectFailed .leave

/-- `ctrl_message_received`. -/
def ctrlMessage (s : Session) : CtrlContent → Result
  | .sessionId accepted =>
      if s.ctrlSessionIdReceived || !accepted then (s, []) else s.share .sessionId .goOn
  | .loginPinRequest => { s with ctrl := { s.ctrl with loginPinRequested := true } }.share .loginPinRequest .goOn
  | .login state =>
      if state = 0 then ({ s with ctrl := { s.ctrl with loginPinRequested := false } }, [])
      else if state = 1 ∧ s.ctrl.loginPinRequested = true then s.share .loginPinRequest .goOn
      else (s, [])
  | .switchAck => if s.streamConnectionSwitchReceived then (s, []) else s.share .switchReceived .goOn
  | .keyboardOpen text => (s, [.event (.keyboardOpen text)])
  | .keyboardTextChange text => (s, [.event (.keyboardTextChange text)])
  | .keyboardRemoteClose => (s, [.event .keyboardRemoteClose])
  | .other => (s, [])

/-- What the thread does when its pipe is signalled. -/
def ctrlCanceled (s : Session) (sent : Bool) : Result :=
  if s.ctrl.loginPinEntered then
    ({ s with ctrl := { s.ctrl with loginPinEntered := false, loginPin := none, notifPipe := false, thread := .busy } },
      (match s.ctrl.loginPin with
        | some pin => [.pinSent pin]
        | none => []) ++ freePin s.ctrl.loginPin)
  else if s.ctrl.shouldStop then s.setCtrl .ended
  else ({ s with ctrl := { s.ctrl with notifPipe := s.ctrl.notifPipe && !sent, thread := .busy } }, [])

def ctrlSelected (s : Session) : CtrlSelect → Result
  | .canceled sent => if s.ctrl.notifPipe then s.ctrlCanceled sent else (s, [])
  | .error => s.setCtrl .ended
  | .closed => if s.rudp then (s, []) else s.setCtrl .ended
  | .recvFailed => s.failCtrl .ctrlUnknown .leave
  | .rudpFinish => if s.rudp then s.failCtrl .ctrlUnknown .goOn else (s, [])
  | .received => s.setCtrl .busy

/-- The writes of the ctrl thread, each with `state_mutex` locked. -/
def notice (s : Session) : CtrlNotice → Session
  | .sessionId => { s with ctrlSessionIdReceived := true }
  | .loginPinRequest => { s with ctrlLoginPinRequested := true }
  | .switchReceived => { s with streamConnectionSwitchReceived := true }
  | .failed reason => { s with quitReason := reason, ctrlFailed := true }

def afterNotice (s : Session) : CtrlThen → Result
  | .goOn => s.setCtrl .busy
  | .connectFailed => s.failCtrl .ctrlConnectFailed .leave
  | .leave => s.setCtrl .ended

/-- `notif_mutex` is free whenever `session_thread_func` is not in a step, so that `ctrl_thread_func` never waits for
it here. -/
def stepCtrl (s : Session) (op : SessionCtrlOp) : Result :=
  match s.ctrl.thread, op with
  | .starting, .enter connect => s.enterCtrl connect
  | .connecting, .connected connect answered => s.ctrlConnected connect answered
  | .busy, .message content => s.ctrlMessage content
  | .busy, .overflow => s.failCtrl .ctrlUnknown .leave
  | .busy, .select => s.setCtrl .selecting
  | .selecting, .selected result => s.ctrlSelected result
  | .sharing notice next, .share => if s.mutexFree then (s.notice notice).afterNotice next else (s, [])
  | _, _ => (s, [])

/-! ## The other threads -/

/-- `regist_cb` up to where it locks `state_mutex`. -/
def stepRegist (cfg : SessionConfig) (s : Session) (success : Bool) (nickname registKey : Bytes) : Result :=
  if s.registThread = .running then
    let s' := { s with registThread := .sharing success }
    if success then
      ({ s' with registKey := registKey }, if cfg.ps5 then [] else [.event (.nicknameReceived nickname)])
    else (s', [])
  else (s, [])

def stepRegistShare (s : Session) : Result :=
  match s.registThread with
  | .sharing success =>
      if s.mutexFree then
        if success then ({ s with psnRegistSucceeded := true, registThread := .ended }, [])
        else ({ s with quitReason := .psnRegistFailed, shouldStop := true, registThread := .ended }, [])
      else (s, [])
  | _ => (s, [])

/-- The steps of the stream connection that are not calls of the session. -/
def streams (s : Session) : StreamConnectionOp → Bool
  | .run _ | .wake _ _ => s.thread = .streaming
  | .stop | .stopSignal | .setControllerState _ => false
  | _ => true

def stepStream (cfg : SessionConfig) (s : Session) (op : StreamConnectionOp) : Checked Result := do
  let r ← StreamConnection.step cfg.lib s.stream op
  pure ({ s with stream := r.1 }, r.2.map .stream)

/-- `chiaki_session_set_login_pin`. -/
def setLoginPin (s : Session) (pin : Bytes) : Result :=
  ({ s with
      buffers := s.buffers + 1
      entries := s.entries + 1
      loginPinEntered := true
      loginPin := some ⟨s.buffers, s.entries, pin⟩ },
    .pinEntered ⟨s.buffers, s.entries, pin⟩ :: .allocated s.buffers ::
      (if s.loginPinEntered then freePin s.loginPin else []))

def step (cfg : SessionConfig) (s : Session) : SessionOp → Checked Result
  | .run o => s.stepRun cfg o
  | .wake timeout => pure (s.stepWake timeout)
  | .ctrl op => pure (s.stepCtrl op)
  | .regist success nickname registKey => pure (s.stepRegist cfg success nickname registKey)
  | .registShare => pure s.stepRegistShare
  | .stream op => if s.streams op then s.stepStream cfg op else pure (s, [])
  | .stop =>
      if s.mutexFree then pure ({ s with shouldStop := true, stopPipe := true, stopCall := .locked }, [])
      else pure (s, [])
  | .stopStream =>
      if s.stopCall = .locked ∧ s.stream.stateMutexHeld = false then
        { s with stopCall := .signalling }.stepStream cfg .stop
      else pure (s, [])
  | .stopSignal =>
      if s.stopCall = .signalling then { s with stopCall := .none }.stepStream cfg .stopSignal else pure (s, [])
  | .setLoginPin pin malloc => pure (if s.mutexFree && malloc then s.setLoginPin pin else (s, []))
  | .setControllerState state => s.stepStream cfg (.setControllerState state)
  | .ctrlNotified => pure ({ s with ctrl := { s.ctrl with notifPipe := true } }, [])

/-- `chiaki_session_init`. -/
def init (cfg : SessionConfig) (registKey nonce : Bytes) (controllerState : ControllerState) : Session where
  target := if cfg.ps5 then .ps5_1 else .ps4_10
  registKey := registKey
  nonce := nonce
  stream := .init controllerState

/-- `chiaki_session_fini` and `chiaki_ctrl_fini`, as far as the PINs go. -/
def fini (s : Session) : List SessionOut := freePin s.loginPin ++ freePin s.ctrl.loginPin

end Session
end Chiaki
