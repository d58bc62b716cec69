import Chiaki.Common
import Chiaki.Lib.Machine

/-!
# Notifications and who waits for them

The websocket thread puts notifications into a queue, and one caller waits for them. A step of the caller is
what it does with `notif_mutex` held, or between two looks at `main_should_stop`.
-/

namespace Chiaki.Holepunch

inductive NotificationType where
  | unknown
  | sessionCreated
  | memberCreated
  | memberDeleted
  | customData1Updated
  | sessionMessageCreated
  | sessionDeleted
  deriving DecidableEq

def NotificationType.bits : NotificationType → UInt16
  | .unknown => 0
  | .sessionCreated => (1 : UInt16) <<< 0
  | .memberCreated => (1 : UInt16) <<< 1
  | .memberDeleted => (1 : UInt16) <<< 2
  | .customData1Updated => (1 : UInt16) <<< 3
  | .sessionMessageCreated => (1 : UInt16) <<< 4
  | .sessionDeleted => (1 : UInt16) <<< 5

inductive SessionMessageAction where
  | unknown
  | offer
  | result
  | accept
  | terminate
  deriving DecidableEq

def SessionMessageAction.bits : SessionMessageAction → UInt16
  | .unknown => 0
  | .offer => 1
  | .result => (1 : UInt16) <<< 2
  | .accept => (1 : UInt16) <<< 3
  | .terminate => (1 : UInt16) <<< 4

structure SessionMessage where
  action : SessionMessageAction
  reqId : UInt16
  deriving DecidableEq

variable {Json : Type}

structure Notification (Json : Type) where
  /-- How many came before it. It stands for the address. -/
  arrival : Nat
  type : NotificationType
  json : Json
  deriving DecidableEq

/-- What the caller is in: one of the three waits, with its arguments. -/
inductive Call where
  | notification (types : UInt16)
  | sessionMessage (types : UInt16)
  | sessionMessageAck (reqId : Int)
  deriving DecidableEq

/-- The types that `wait_for_notification` is called with. -/
def Call.query : Call → UInt16
  | .notification types => types
  | _ => NotificationType.sessionMessageCreated.bits

/-- The types that `wait_for_session_message` is called with. -/
def Call.actions : Call → UInt16
  | .notification _ => 0
  | .sessionMessage types => types
  | .sessionMessageAck _ => SessionMessageAction.result.bits

inductive Point (Json : Type) where
  /-- At the head of the outer loop of `wait_for_notification`. -/
  | scanning (lastKnown : Option Nat)
  /-- In `chiaki_cond_timedwait`. -/
  | waiting (lastKnown : Option Nat)
  /-- `wait_for_notification` has returned to `wait_for_session_message`. -/
  | found (notif : Notification Json)
  /-- Before `clear_notification` in `wait_for_session_message`. -/
  | ignoring (notif : Notification Json)
  /-- `wait_for_session_message` has returned to `wait_for_session_message_ack`. -/
  | received (notif : Notification Json) (msg : SessionMessage)
  deriving DecidableEq

structure Running (Json : Type) where
  call : Call
  point : Point Json
  /-- What `wait_for_notification` has found for this call. -/
  examined : List (Notification Json)
  deriving DecidableEq

structure Session (Json : Type) where
  wsNotificationQueue : List (Notification Json)
  mainShouldStop : Bool
  /-- How many notifications have arrived. -/
  arrived : Nat
  running : Option (Running Json)
  deriving DecidableEq

inductive Event (Json : Type) where
  | cleared (notif : Notification Json)
  | returned (call : Call) (examined : List (Notification Json)) (result : Except ErrorCode (Notification Json))
  deriving DecidableEq

inductive Input (Json : Type) where
  /-- The websocket thread receives a notification. -/
  | enqueueNq (type : NotificationType) (json : Json)
  /-- Another thread wants the session to stop. -/
  | stop
  | call (call : Call)
  | clearNotification (arrival : Nat)
  /-- `chiaki_cond_timedwait` returns. -/
  | wake (timeout : Bool) (elapsed : Bool)
  /-- The next step of the caller. -/
  | caller
  deriving DecidableEq

def start : Session Json := ⟨[], false, 0, none⟩

def wanted (types : UInt16) (notif : Notification Json) : Bool := notif.type.bits &&& types != 0

/-- The notifications from `last_known->next` on. -/
def following (queue : List (Notification Json)) : Option Nat → Checked (List (Notification Json))
  | none => .ok queue
  | some lastKnown =>
      match queue.dropWhile (·.arrival != lastKnown) with
      | [] => .error .outOfBounds
      | _ :: rest => .ok rest

/-- What `clear_notification` takes out of the queue, and what it leaves. -/
def clearNotification (arrival : Nat) : List (Notification Json) → List (Notification Json) × List (Notification Json)
  | [] => ([], [])
  | front :: rest =>
      if front.arrival = arrival then ([front], rest)
      else (front :: (clearNotification arrival rest).1, (clearNotification arrival rest).2)

section Steps

variable (s : Session Json) (r : Running Json)

def goto (point : Point Json) : Session Json × List (Event Json) :=
  ({ s with running := some { r with point := point } }, [])

def finish (result : Except ErrorCode (Notification Json)) : Session Json × List (Event Json) :=
  ({ s with running := none }, [.returned r.call r.examined result])

def cancel : Session Json × List (Event Json) :=
  ({ s with mainShouldStop := false, running := none }, [.returned r.call r.examined (.error .canceled)])

/-- One turn of the outer loop of `wait_for_notification`. -/
def waitForNotification (lastKnown : Option Nat) : Checked (Session Json × List (Event Json)) :=
  match s.wsNotificationQueue.getLast? with
  | none => .ok (goto s r (.waiting lastKnown))
  | some rear =>
      if lastKnown = some rear.arrival then .ok (goto s r (.waiting lastKnown))
      else
        match following s.wsNotificationQueue lastKnown with
        | .error fault => .error fault
        | .ok rest =>
            match rest.find? (wanted r.call.query) with
            | none => .ok (goto s r (.scanning (some rear.arrival)))
            | some notif =>
                let r := { r with examined := r.examined ++ [notif] }
                match r.call with
                | .notification _ => .ok (finish s r (.ok notif))
                | _ => .ok (goto s r (.found notif))

variable (parse : Json → Except ErrorCode SessionMessage)

/-- `wait_for_session_message` after `wait_for_notification`. `parse` is `session_message_get_payload` and
`session_message_parse`. -/
def waitForSessionMessage (notif : Notification Json) : Checked (Session Json × List (Event Json)) :=
  if s.mainShouldStop then .ok (cancel s r)
  else if s.wsNotificationQueue.any (·.arrival = notif.arrival) then
    match parse notif.json with
    | .error err => .ok (finish s r (.error err))
    | .ok msg =>
        if msg.action.bits &&& r.call.actions = 0 then .ok (goto s r (.ignoring notif))
        else
          match r.call with
          | .sessionMessageAck _ => .ok (goto s r (.received notif msg))
          | _ => .ok (finish s r (.ok notif))
  else .error .outOfBounds

/-- `wait_for_session_message_ack` after `wait_for_session_message`. -/
def waitForSessionMessageAck (notif : Notification Json) (msg : SessionMessage) : Session Json × List (Event Json) :=
  if s.mainShouldStop then cancel s r
  else
    match r.call with
    | .sessionMessageAck reqId =>
        -- the answer to another request: the loop goes on, and leaves the notification where it is
        if (msg.reqId.toNat : Int) ≠ reqId then goto s r (.scanning none) else finish s r (.ok notif)
    | _ => finish s r (.ok notif)

def caller : Checked (Session Json × List (Event Json)) :=
  match r.point with
  | .scanning lastKnown => waitForNotification s r lastKnown
  | .waiting _ => .ok (s, [])
  | .found notif => waitForSessionMessage s r parse notif
  | .ignoring notif =>
      let (cleared, left) := clearNotification notif.arrival s.wsNotificationQueue
      .ok ({ s with wsNotificationQueue := left, running := some { r with point := .scanning none } }, cleared.map .cleared)
  | .received notif msg => .ok (waitForSessionMessageAck s r notif msg)

/-- What the caller does when `chiaki_cond_timedwait` returns; `elapsed` is whether the whole time is over. -/
def wake (lastKnown : Option Nat) (timeout elapsed : Bool) : Session Json × List (Event Json) :=
  if timeout && elapsed then finish s r (.error .timeout)
  else if s.mainShouldStop then cancel s r
  else goto s r (.scanning lastKnown)

end Steps

/-- One call after the other: while one runs, no other starts. -/
def step (parse : Json → Except ErrorCode SessionMessage) (s : Session Json) :
    Input Json → Checked (Session Json × List (Event Json))
  | .enqueueNq type json =>
      .ok ({ s with wsNotificationQueue := s.wsNotificationQueue ++ [⟨s.arrived, type, json⟩], arrived := s.arrived + 1 }, [])
  | .stop => .ok ({ s with mainShouldStop := true }, [])
  | .call call =>
      match s.running with
      | none => .ok ({ s with running := some ⟨call, .scanning none, []⟩ }, [])
      | some _ => .ok (s, [])
  | .clearNotification arrival =>
      match s.running with
      | none =>
          let (cleared, left) := clearNotification arrival s.wsNotificationQueue
          .ok ({ s with wsNotificationQueue := left }, cleared.map .cleared)
      | some _ => .ok (s, [])
  | .wake timeout elapsed =>
      match s.running with
      | some r =>
          match r.point with
          | .waiting lastKnown => .ok (wake s r lastKnown timeout elapsed)
          | _ => .ok (s, [])
      | none => .ok (s, [])
  | .caller =>
      match s.running with
      | some r => caller s r parse
      | none => .ok (s, [])

end Chiaki.Holepunch
