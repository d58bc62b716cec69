import Chiaki.Common
import Chiaki.Lib.Machine

/-!
# Telling the ctrl thread what to do

Other threads leave a message, a PIN or the wish to stop with the ctrl thread and wake it through `notif_pipe`.
A step is what happens between two operations on `notif_mutex` or the pipe. Every call is known by an identifier.
-/

namespace Chiaki

/-- `ChiakiCtrlMessageQueue`, without its link. -/
structure CtrlMessageQueue where
  type : Nat
  payload : Option Bytes
  deriving DecidableEq

/-- The calls: `chiaki_ctrl_send_message`, `chiaki_ctrl_set_login_pin` and `chiaki_ctrl_stop`. -/
inductive CtrlCall where
  | sendMessage (message : CtrlMessageQueue)
  | setLoginPin (pin : Bytes)
  | stop
  deriving DecidableEq

/-- Where a call is. A message is signalled after the mutex is unlocked, the others before. -/
inductive CtrlCallPoint where
  | lock
  | locked
  | signalled
  | unlocked
  | returned
  deriving DecidableEq

/-- What `chiaki_stop_pipe_select_single` returns. -/
inductive SelectResult where
  | canceled
  | success
  | failure
  deriving DecidableEq

/-- Where `ctrl_thread_func` is. -/
inductive CtrlThreadPoint where
  | start
  | connecting
  | selecting
  | woken (result : SelectResult)
  | locked (result : SelectResult)
  | drained (msgQueueUpdated : Bool)
  | resetting
  | unlocking
  | ended
  deriving DecidableEq

/-- Whether the thread holds `notif_mutex` there. -/
def CtrlThreadPoint.holds : CtrlThreadPoint → Bool
  | .connecting | .locked _ | .drained _ | .resetting | .unlocking => true
  | _ => false

inductive CtrlHolder (ι : Type) where
  | thread
  | call (id : ι)
  deriving DecidableEq

structure CtrlNotifier (ι : Type) where
  msgQueue : List (ι × CtrlMessageQueue)
  /-- The PIN, if `login_pin_entered`, and whose it is. -/
  loginPin : Option (ι × Bytes)
  shouldStop : Bool
  /-- Whether the pipe is readable. -/
  notifPipe : Bool
  notifMutex : Option (CtrlHolder ι)
  calls : ι → CtrlCallPoint
  thread : CtrlThreadPoint

inductive CtrlOp (ι : Type) where
  /-- The next step of a call. -/
  | call (id : ι)
  | select (result : SelectResult)
  /-- The next step of the ctrl thread. `ok` is whether it connects, or can use what it receives. -/
  | thread (ok : Bool)

/-- The messages that are put into the queue, and what is sent to the console. -/
structure CtrlOut (ι : Type) where
  queued : List (ι × CtrlMessageQueue) := []
  sent : List (ι × CtrlMessageQueue) := []
  sentPin : Option Bytes := none

/-- A step that has to wait. -/
structure Blocked where

namespace CtrlNotifier
variable {ι : Type}

def init : CtrlNotifier ι where
  msgQueue := []
  loginPin := none
  shouldStop := false
  notifPipe := false
  notifMutex := none
  calls := fun _ => .lock
  thread := .start

/-- What a call does with the mutex held. -/
def write (s : CtrlNotifier ι) (id : ι) : CtrlCall → CtrlNotifier ι × CtrlOut ι
  | .sendMessage message => ({ s with msgQueue := s.msgQueue ++ [(id, message)] }, { queued := [(id, message)] })
  | .setLoginPin pin => ({ s with loginPin := some (id, pin) }, {})
  | .stop => ({ s with shouldStop := true }, {})

@[simp, grind =] theorem write_notifPipe (s : CtrlNotifier ι) (id : ι) (call : CtrlCall) :
    (s.write id call).1.notifPipe = s.notifPipe := by cases call <;> rfl

@[simp, grind =] theorem write_notifMutex (s : CtrlNotifier ι) (id : ι) (call : CtrlCall) :
    (s.write id call).1.notifMutex = s.notifMutex := by cases call <;> rfl

@[simp, grind =] theorem write_calls (s : CtrlNotifier ι) (id : ι) (call : CtrlCall) :
    (s.write id call).1.calls = s.calls := by cases call <;> rfl

@[simp, grind =] theorem write_thread (s : CtrlNotifier ι) (id : ι) (call : CtrlCall) :
    (s.write id call).1.thread = s.thread := by cases call <;> rfl

@[simp, grind =] theorem write_sent (s : CtrlNotifier ι) (id : ι) (call : CtrlCall) :
    (s.write id call).2.sent = [] := by cases call <;> rfl

variable [DecidableEq ι]

def setCall (s : CtrlNotifier ι) (id : ι) (point : CtrlCallPoint) : CtrlNotifier ι :=
  { s with calls := Function.update s.calls id point }

@[simp, grind =] theorem setCall_calls (s : CtrlNotifier ι) (id : ι) (point : CtrlCallPoint) (other : ι) :
    (s.setCall id point).calls other = if other = id then point else s.calls other :=
  Function.update_apply s.calls id point other

@[simp, grind =] theorem setCall_msgQueue (s : CtrlNotifier ι) (id : ι) (point : CtrlCallPoint) :
    (s.setCall id point).msgQueue = s.msgQueue := rfl

@[simp, grind =] theorem setCall_loginPin (s : CtrlNotifier ι) (id : ι) (point : CtrlCallPoint) :
    (s.setCall id point).loginPin = s.loginPin := rfl

@[simp, grind =] theorem setCall_shouldStop (s : CtrlNotifier ι) (id : ι) (point : CtrlCallPoint) :
    (s.setCall id point).shouldStop = s.shouldStop := rfl

@[simp, grind =] theorem setCall_notifPipe (s : CtrlNotifier ι) (id : ι) (point : CtrlCallPoint) :
    (s.setCall id point).notifPipe = s.notifPipe := rfl

@[simp, grind =] theorem setCall_notifMutex (s : CtrlNotifier ι) (id : ι) (point : CtrlCallPoint) :
    (s.setCall id point).notifMutex = s.notifMutex := rfl

@[simp, grind =] theorem setCall_thread (s : CtrlNotifier ι) (id : ι) (point : CtrlCallPoint) :
    (s.setCall id point).thread = s.thread := rfl

def stepCall (call : CtrlCall) (s : CtrlNotifier ι) (id : ι) : Except Blocked (CtrlNotifier ι × CtrlOut ι) :=
  match s.calls id with
  | .lock =>
      match s.notifMutex with
      | some _ => .error {}
      | none =>
          let r := s.write id call
          .ok ({ r.1.setCall id .locked with notifMutex := some (.call id) }, r.2)
  | .locked =>
      match call with
      | .sendMessage _ => .ok ({ s.setCall id .unlocked with notifMutex := none }, {})
      | _ => .ok ({ s.setCall id .signalled with notifPipe := true }, {})
  | .signalled => .ok ({ s.setCall id .returned with notifMutex := none }, {})
  | .unlocked => .ok ({ s.setCall id .returned with notifPipe := true }, {})
  | .returned => .error {}

/-- `chiaki_mutex_lock` in the ctrl thread. -/
def lockThread (s : CtrlNotifier ι) (point : CtrlThreadPoint) : Except Blocked (CtrlNotifier ι × CtrlOut ι) :=
  match s.notifMutex with
  | some _ => .error {}
  | none => .ok ({ s with notifMutex := some .thread, thread := point }, {})

def unlockThread (s : CtrlNotifier ι) (point : CtrlThreadPoint) : CtrlNotifier ι :=
  { s with notifMutex := none, thread := point }

/-- `ctrl_thread_func`. -/
def stepThread (s : CtrlNotifier ι) (ok : Bool) : Except Blocked (CtrlNotifier ι × CtrlOut ι) :=
  match s.thread with
  | .start => s.lockThread .connecting
  | .connecting => if ok then .ok ({ s with thread := .unlocking }, {}) else .ok (s.unlockThread .ended, {})
  | .selecting => .error {}
  | .woken result => s.lockThread (.locked result)
  | .locked .canceled => .ok ({ s with msgQueue := [], thread := .drained !s.msgQueue.isEmpty }, { sent := s.msgQueue })
  | .locked .success => if ok then .ok ({ s with thread := .unlocking }, {}) else .ok (s.unlockThread .ended, {})
  | .locked .failure => .ok (s.unlockThread .ended, {})
  | .drained msgQueueUpdated =>
      match s.loginPin with
      | some (_, pin) => .ok ({ s with loginPin := none, thread := .resetting }, { sentPin := some pin })
      | none =>
          if s.shouldStop then .ok (s.unlockThread .ended, {})
          else if msgQueueUpdated then .ok ({ s with thread := .resetting }, {})
          else .ok (s.unlockThread .selecting, {})
  | .resetting => .ok ({ s with notifPipe := false, thread := .unlocking }, {})
  | .unlocking => .ok (s.unlockThread .selecting, {})
  | .ended => .error {}

/-- A readable pipe is looked at before the socket. -/
def stepSelect (s : CtrlNotifier ι) (result : SelectResult) : Except Blocked (CtrlNotifier ι × CtrlOut ι) :=
  match s.thread with
  | .selecting =>
      if result = .failure ∨ (result = .canceled ↔ s.notifPipe = true) then .ok ({ s with thread := .woken result }, {})
      else .error {}
  | _ => .error {}

def step (calls : ι → CtrlCall) (s : CtrlNotifier ι) : CtrlOp ι → Except Blocked (CtrlNotifier ι × CtrlOut ι)
  | .call id => s.stepCall (calls id) id
  | .select result => s.stepSelect result
  | .thread ok => s.stepThread ok

end CtrlNotifier

end Chiaki
