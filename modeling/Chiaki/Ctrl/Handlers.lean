import Chiaki.Ctrl.Receive
import Chiaki.Base64.Encode
import Chiaki.Printf

/-!
# The handlers of control messages

`ctrl_message_received` and what it dispatches to. The payload is what was received; a read behind it is a fault.
-/

namespace Chiaki
open Memory

def ctrlMessageTypeSessionId : Nat := 0x33
def ctrlMessageTypeHeartbeatReq : Nat := 0xfe
def ctrlMessageTypeHeartbeatRep : Nat := 0x1fe
def ctrlMessageTypeLoginPinReq : Nat := 0x4
def ctrlMessageTypeLogin : Nat := 0x5
def ctrlMessageTypeKeyboardEnable : Nat := 0xd
def ctrlMessageTypeKeyboardEnableToggle : Nat := 0x20
def ctrlMessageTypeKeyboardOpen : Nat := 0x21
def ctrlMessageTypeKeyboardCloseRemote : Nat := 0x22
def ctrlMessageTypeKeyboardTextChangeRes : Nat := 0x24
def ctrlMessageTypeEnableDualsenseFeatures : Nat := 0x13
def ctrlMessageTypeDisplaya : Nat := 0x1
def ctrlMessageTypeDisplayb : Nat := 0x16
def ctrlMessageTypeMicToggle : Nat := 0x36
def ctrlMessageTypeDisplayDevices : Nat := 0x910
def ctrlMessageTypeSwitchToStreamConnection : Nat := 0x34

def sessionIdSizeMax : Nat := 80

/-- What the handlers find around them: if errors are logged, if `malloc` succeeds, the clock, the random bytes, and what
is on the stack. -/
structure CtrlSurroundings where
  cipher : CtrlCipher
  logsErrors : Bool
  malloc : Bool
  timeSeconds : Nat
  randomBytes : Except ErrorCode Bytes
  stack : Bytes
  time_small : timeSeconds < 10 ^ 15
  length_random : ∀ bytes, randomBytes = .ok bytes → bytes.length = 48
  length_stack : stack.length = sessionIdSizeMax

/-- The part of `ChiakiCtrl` and `ChiakiSession` that the handlers use. -/
structure CtrlSession where
  cryptCounterRemote : Nat
  loginPinRequested : Bool
  cantDisplaya : Bool
  cantDisplayb : Bool
  ctrlSessionIdReceived : Bool
  ctrlLoginPinRequested : Bool
  streamConnectionSwitchReceived : Bool
  enableDualsense : Bool
  enableKeyboard : Bool
  /-- There is a `cantdisplay_cb`. -/
  displaySink : Bool
  sessionId : Bytes

inductive CtrlEffect where
  | send (type : Nat) (payload : Bytes)
  | keyboardOpen (text : Option Bytes)
  | keyboardTextChange (text : Option Bytes)
  | keyboardRemoteClose
  | cantDisplay (cantDisplay : Bool)
  | signalState
  deriving DecidableEq

abbrev CtrlHandled := Checked (CtrlSession × List CtrlEffect)

/-! ## The fallback session id -/

/-- `fallback_session_id`. -/
def fallbackSessionId (env : CtrlSurroundings) : Checked (Except ErrorCode Bytes) := do
  let time := decimal env.timeSeconds
  let buf ← setField env.stack 0 (time.take 15 ++ [0])
  match env.randomBytes with
  | .error err => pure (.error err)
  | .ok randBytes =>
      match base64Encode randBytes 65 with
      | .error err => pure (.error err)
      | .ok encoded => do
          let buf ← setField buf time.length encoded
          pure (.ok buf)

namespace CtrlSession

/-- `ctrl_message_set_fallback_session_id`. -/
def setFallbackSessionId (env : CtrlSurroundings) (ctrl : CtrlSession) : CtrlHandled := do
  match ← fallbackSessionId env with
  | .error _ => pure (ctrl, [])
  | .ok fallback =>
      if ctrl.ctrlSessionIdReceived then pure (ctrl, [])
      else do
        let sessionId ← setField ctrl.sessionId 0 fallback
        pure ({ ctrl with sessionId := sessionId, ctrlSessionIdReceived := true }, [.signalState])

/-! ## The handlers -/

/-- A string that is logged, up to its end. -/
def logString (payload : Bytes) : Checked Unit :=
  if 0 ∈ payload then pure () else .error .outOfBounds

def isSessionIdChar (c : UInt8) : Bool :=
  (0x61 ≤ c && c ≤ 0x7a) || (0x41 ≤ c && c ≤ 0x5a) || (0x30 ≤ c && c ≤ 0x39)

/-- `ctrl_message_received_session_id`. -/
def receivedSessionId (env : CtrlSurroundings) (ctrl : CtrlSession) (payload : Bytes) : CtrlHandled :=
  if ctrl.ctrlSessionIdReceived then pure (ctrl, [])
  else if payload.length < 2 then do
    if env.logsErrors then logString payload
    ctrl.setFallbackSessionId env
  else
    -- the size is skipped
    let sessionId := payload.drop 1
    if sessionIdSizeMax - 1 ≤ sessionId.length then ctrl.setFallbackSessionId env
    else if sessionId.length < 24 then ctrl.setFallbackSessionId env
    else if !sessionId.all isSessionIdChar then ctrl.setFallbackSessionId env
    else do
      let written ← setField ctrl.sessionId 0 (sessionId ++ [0])
      pure ({ ctrl with sessionId := written, ctrlSessionIdReceived := true }, [.signalState])

/-- `ctrl_enable_features`. -/
def enableFeatures (ctrl : CtrlSession) : List CtrlEffect :=
  (if ctrl.enableDualsense then
    [.send ctrlMessageTypeEnableDualsenseFeatures [0x00, 0x40, 0x00],
      .send 0x11 [0xa0, 0xab, 0x51, 0xbd, 0xd1, 0x7e, 0, 0, 0xff, 0xff, 0xff, 0xff, 0xff, 0, 0, 0]]
  else []) ++
  (if ctrl.enableKeyboard then
    [.send ctrlMessageTypeKeyboardEnable [0, 0, 0, 1, 0, 0, 0x05, 0xae, 0, 0, 0, 0, 0, 0, 0, 0],
      .send ctrlMessageTypeKeyboardEnableToggle [1]]
  else []) ++
  [.send ctrlMessageTypeMicToggle [0, 1, 1, 89], .send ctrlMessageTypeMicToggle [0, 1, 1, 89],
    .send ctrlMessageTypeDisplayDevices [0, 0, 0, 0]]

/-- `cantdisplay_cb`. -/
def callCantDisplay (ctrl : CtrlSession) : Checked Unit := if ctrl.displaySink then pure () else .error .nullPointer

/-- `ctrl_message_received_displaya`. -/
def receivedDisplaya (ctrl : CtrlSession) (payload : Bytes) : CtrlHandled := do
  let state ← byteAt payload 0
  if state = 1 then pure ({ ctrl with cantDisplaya := true }, [])
  else if state = 0 ∧ ctrl.cantDisplayb = false then do
    ctrl.callCantDisplay
    pure ({ ctrl with cantDisplaya := false }, [.cantDisplay false])
  else pure (ctrl, [])

/-- Two bytes are compared, the second one only if the first one is equal. -/
def startsWith (payload : Bytes) (first second : UInt8) : Checked Bool := do
  let b ← byteAt payload 0
  if b ≠ first then pure false
  else do
    let b ← byteAt payload 1
    pure (b = second)

/-- The content begins that cannot be displayed. -/
def blockDisplayb (ctrl : CtrlSession) (payload : Bytes) : CtrlHandled :=
  if ctrl.cantDisplaya then do
    let blocked ← startsWith payload 0 0
    if blocked && !ctrl.cantDisplayb then do
      ctrl.callCantDisplay
      pure ({ ctrl with cantDisplayb := true }, [.cantDisplay true])
    else pure (ctrl, [])
  else pure (ctrl, [])

/-- It ends. -/
def unblockDisplayb (ctrl : CtrlSession) (payload : Bytes) : Checked CtrlSession :=
  if ctrl.cantDisplayb then do
    let ended ← startsWith payload 1 0xff
    pure (if ended then { ctrl with cantDisplayb := false } else ctrl)
  else pure ctrl

/-- `ctrl_message_received_displayb`. -/
def receivedDisplayb (ctrl : CtrlSession) (payload : Bytes) : CtrlHandled := do
  let (ctrl, effects) ← ctrl.blockDisplayb payload
  let ctrl ← ctrl.unblockDisplayb payload
  pure (ctrl, effects)

/-- `ctrl_message_received_login`. -/
def receivedLogin (ctrl : CtrlSession) (payload : Bytes) : CtrlHandled :=
  if payload.length < 1 then pure (ctrl, [])
  else do
    let state ← byteAt payload 0
    if state = 0 then pure ({ ctrl with loginPinRequested := false }, [])
    else if state = 1 ∧ ctrl.loginPinRequested = true then
      pure ({ ctrl with ctrlLoginPinRequested := true }, [.signalState])
    else pure (ctrl, [])

/-- A payload of a fixed part and a text, whose length is in the fixed part. -/
def keyboardText (env : CtrlSurroundings) (payload : Bytes) (size lengthOffset : Nat) : Checked (Option Bytes) := do
  assert (size ≤ payload.length)
  let textLength ← read32 payload lengthOffset
  assert (payload.length = size + textLength)
  if 0 < textLength && env.malloc then do
    let text ← field payload size textLength
    pure (some text)
  else pure none

def sizeofCtrlKeyboardOpenMessage : Nat := 0x1c + 4
def sizeofCtrlKeyboardTextResponseMessage : Nat := 4 + 4 + 4 + 4 + 0x10 + 4 + 4

/-- `ctrl_message_received_keyboard_open`. -/
def receivedKeyboardOpen (env : CtrlSurroundings) (ctrl : CtrlSession) (payload : Bytes) : CtrlHandled := do
  let text ← keyboardText env payload sizeofCtrlKeyboardOpenMessage 0x1c
  pure (ctrl, [.keyboardOpen text])

/-- `ctrl_message_received_keyboard_text_change`. -/
def receivedKeyboardTextChange (env : CtrlSurroundings) (ctrl : CtrlSession) (payload : Bytes) : CtrlHandled := do
  let text ← keyboardText env payload sizeofCtrlKeyboardTextResponseMessage 8
  pure (ctrl, [.keyboardTextChange text])

/-- The `switch` of `ctrl_message_received`. -/
def dispatch (env : CtrlSurroundings) (ctrl : CtrlSession) (msgType : Nat) (payload : Bytes) : CtrlHandled :=
  if msgType = ctrlMessageTypeSessionId then do
    let (ctrl, effects) ← ctrl.receivedSessionId env payload
    pure (ctrl, effects ++ ctrl.enableFeatures)
  else if msgType = ctrlMessageTypeHeartbeatReq then pure (ctrl, [.send ctrlMessageTypeHeartbeatRep []])
  else if msgType = ctrlMessageTypeLoginPinReq then
    pure ({ ctrl with loginPinRequested := true, ctrlLoginPinRequested := true }, [.signalState])
  else if msgType = ctrlMessageTypeLogin then ctrl.receivedLogin payload
  else if msgType = ctrlMessageTypeKeyboardOpen then ctrl.receivedKeyboardOpen env payload
  else if msgType = ctrlMessageTypeKeyboardTextChangeRes then ctrl.receivedKeyboardTextChange env payload
  else if msgType = ctrlMessageTypeKeyboardCloseRemote then pure (ctrl, [.keyboardRemoteClose])
  else if msgType = ctrlMessageTypeDisplaya then ctrl.receivedDisplaya payload
  else if msgType = ctrlMessageTypeDisplayb then ctrl.receivedDisplayb payload
  else if msgType = ctrlMessageTypeSwitchToStreamConnection then
    if ctrl.streamConnectionSwitchReceived then pure (ctrl, [])
    else pure ({ ctrl with streamConnectionSwitchReceived := true }, [.signalState])
  else pure (ctrl, [])

/-- The payload after `chiaki_rpcrypt_decrypt`, if that succeeds. -/
def decrypted (env : CtrlSurroundings) (ctrl : CtrlSession) (payload : Bytes) : Option Bytes :=
  if payload.length = 0 then some payload else env.cipher.decrypt ctrl.cryptCounterRemote payload

/-- `ctrl_message_received`. -/
def messageReceived (env : CtrlSurroundings) (ctrl : CtrlSession) (msgType : Nat) (payload : Bytes) : CtrlHandled :=
  let counted := if payload.length = 0 then ctrl else { ctrl with cryptCounterRemote := ctrl.cryptCounterRemote + 1 }
  match ctrl.decrypted env payload with
  | none => pure (counted, [])
  | some plain => counted.dispatch env msgType plain

end CtrlSession
end Chiaki
