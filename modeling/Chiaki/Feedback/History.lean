import Chiaki.Controller.State
import Chiaki.Lib.Machine

/-!
# Feedback history

The events for buttons and touches of `feedback.c`, and the thread of `feedbacksender.c` that makes them from two
states of the controller. An event is the used part of its buffer.
-/

namespace Chiaki

/-- `chiaki_feedback_history_event_set_button`. Some buttons have a third byte for the state. -/
def feedbackHistoryEventSetButton (button : Nat) (state : UInt8) : Except ErrorCode Bytes :=
  if button = ControllerButton.cross.value then .ok [0x80, 0x88, state]
  else if button = ControllerButton.moon.value then .ok [0x80, 0x89, state]
  else if button = ControllerButton.box.value then .ok [0x80, 0x8a, state]
  else if button = ControllerButton.pyramid.value then .ok [0x80, 0x8b, state]
  else if button = ControllerButton.dpadLeft.value then .ok [0x80, 0x82, state]
  else if button = ControllerButton.dpadRight.value then .ok [0x80, 0x83, state]
  else if button = ControllerButton.dpadUp.value then .ok [0x80, 0x80, state]
  else if button = ControllerButton.dpadDown.value then .ok [0x80, 0x81, state]
  else if button = ControllerButton.l1.value then .ok [0x80, 0x84, state]
  else if button = ControllerButton.r1.value then .ok [0x80, 0x85, state]
  else if button = ControllerAnalogButton.l2.value then .ok [0x80, 0x86, state]
  else if button = ControllerAnalogButton.r2.value then .ok [0x80, 0x87, state]
  else if button = ControllerButton.l3.value then .ok [0x80, if state ≠ 0 then 0xaf else 0x8f]
  else if button = ControllerButton.r3.value then .ok [0x80, if state ≠ 0 then 0xb0 else 0x90]
  else if button = ControllerButton.options.value then .ok [0x80, if state ≠ 0 then 0xac else 0x8c]
  else if button = ControllerButton.share.value then .ok [0x80, if state ≠ 0 then 0xad else 0x8d]
  else if button = ControllerButton.touchpad.value then .ok [0x80, if state ≠ 0 then 0xb1 else 0x91]
  else if button = ControllerButton.ps.value then .ok [0x80, if state ≠ 0 then 0xae else 0x8e]
  else .error .invalidData

/-- `chiaki_feedback_history_event_set_touchpad`. -/
def feedbackHistoryEventSetTouchpad (down : Bool) (pointerId : UInt8) (x y : UInt16) : Bytes :=
  [if down then 0xd0 else 0xc0, pointerId &&& 0x7f, (x >>> 4).toUInt8,
    ((x &&& 0xf) <<< 4).toUInt8 ||| (y >>> 8).toUInt8, y.toUInt8]

/-! ## The differences of two states -/

def buttonEvent (prev now : BitVec 32) (i : Nat) : Option Bytes :=
  if prev.getLsbD i = now.getLsbD i then none
  else (feedbackHistoryEventSetButton (2 ^ i) (if now.getLsbD i then 0xff else 0)).toOption

def analogEvent (button : ControllerAnalogButton) (prev now : UInt8) : Option Bytes :=
  if prev = now then none else (feedbackHistoryEventSetButton button.value now).toOption

def touchEvent (prev now : ControllerTouch) : Option Bytes :=
  if prev.id ≠ now.id ∧ 0 ≤ prev.id then
    some (feedbackHistoryEventSetTouchpad false prev.id.toUInt8 prev.x prev.y)
  else if 0 ≤ now.id ∧ (prev.id ≠ now.id ∨ prev.x ≠ now.x ∨ prev.y ≠ now.y) then
    some (feedbackHistoryEventSetTouchpad true now.id.toUInt8 now.x now.y)
  else none

/-- `feedback_sender_send_history`: the events that are pushed, in order. -/
def feedbackSenderSendHistory (prev now : ControllerState) : List Bytes :=
  (List.range controllerButtonsCount).filterMap (buttonEvent prev.buttons now.buttons)
    ++ (analogEvent .l2 prev.l2State now.l2State).toList
    ++ (analogEvent .r2 prev.r2State now.r2State).toList
    ++ (List.finRange controllerTouchesMax).filterMap fun i => touchEvent (prev.touches i) (now.touches i)

/-- `controller_state_equals_for_feedback_history`. -/
def equalsForFeedbackHistory (a b : ControllerState) : Bool :=
  a.buttons == b.buttons && a.l2State == b.l2State && a.r2State == b.r2State
    && (List.finRange controllerTouchesMax).all fun i =>
      (a.touches i).id == (b.touches i).id
        && !((a.touches i).id ≥ 0 && ((a.touches i).x != (b.touches i).x || (a.touches i).y != (b.touches i).y))

/-! ## The sender -/

structure FeedbackSender where
  controllerStatePrev : ControllerState
  controllerState : ControllerState
  controllerStateChanged : Bool
  shouldStop : Bool

/-- What happens to the sender while it holds its mutex. The comparison of the sensors is an input. -/
inductive FeedbackInput where
  | setControllerState (state : ControllerState) (motion : Bool)
  | iteration
  | stop

/-- The two states of an iteration of the thread, and the events pushed in it. -/
structure Iteration where
  prev : ControllerState
  now : ControllerState
  history : List Bytes

namespace FeedbackSender

/-- `chiaki_feedback_sender_init`. -/
def init : FeedbackSender := ⟨.idle, .idle, false, false⟩

/-- `chiaki_feedback_sender_set_controller_state`. -/
def setControllerState (sender : FeedbackSender) (state : ControllerState) (motion : Bool) : FeedbackSender :=
  if sender.controllerState.equals state motion then sender
  else { sender with controllerState := state, controllerStateChanged := true }

/-- The loop of `feedback_sender_thread_func` from one wait to the next. -/
def iterate (sender : FeedbackSender) : FeedbackSender × Option Iteration :=
  if sender.shouldStop then (sender, none)
  else
    let sendHistory := sender.controllerStateChanged
      && !equalsForFeedbackHistory sender.controllerState sender.controllerStatePrev
    let history :=
      if sendHistory then feedbackSenderSendHistory sender.controllerStatePrev sender.controllerState else []
    ({ sender with controllerStateChanged := false, controllerStatePrev := sender.controllerState },
      some ⟨sender.controllerStatePrev, sender.controllerState, history⟩)

def step (sender : FeedbackSender) : FeedbackInput → FeedbackSender × Option Iteration
  | .setControllerState state motion => (sender.setControllerState state motion, none)
  | .iteration => sender.iterate
  | .stop => ({ sender with shouldStop := true }, none)

end FeedbackSender

end Chiaki
