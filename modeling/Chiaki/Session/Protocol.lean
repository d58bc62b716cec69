import Chiaki.Session.Thread
import Chiaki.StreamConnection.Outcome
import Chiaki.StreamConnection.Stopping

/-!
# The order of a session

What a session reports and sends, in the order in which it may. The invariant goes with the points of the thread of
the session: they lie in zones, and a thread that the session starts runs in some of them only.
-/

namespace Chiaki
open Machine

/-- What has happened according to the log. -/
structure SessionHistory where
  /-- 1 from the first request on, 2 once a PIN was asked for, 3 and 4 while and after the hole for the data was
  punched, 5 from the stream connection on, 6 at the end. -/
  stage : Nat := 0
  requests : Nat := 0
  pinRequested : Bool := false
  entered : List Bytes := []
  /-- The first PIN that may still be sent. -/
  sent : Nat := 0
  stream : StreamHistory := {}

namespace SessionHistory

def next (h : SessionHistory) : SessionOut → SessionHistory
  | .event (.nicknameReceived _) => { h with stage := 1 }
  | .event (.loginPinRequest _) => { h with stage := 2, pinRequested := true }
  | .event (.holepunch finished) => { h with stage := if finished then 4 else 3 }
  | .event (.quit _ _) => { h with stage := 6 }
  | .event _ => h
  | .request _ _ _ => { h with stage := 1, requests := h.requests + 1 }
  | .stream out => { h with stage := 5, stream := h.stream.next out }
  | .pinEntered pin => { h with entered := h.entered ++ [pin.pin] }
  | .pinSent pin => { h with sent := pin.entry + 1 }
  | .allocated _ | .freed _ => h

/-- The console has answered a request, and the session has not quit. -/
def Alive (h : SessionHistory) : Prop := 0 < h.requests ∧ h.stage < 6

/-- What may come next. -/
def Permitted (lib : StreamConnectionLib) (h : SessionHistory) : SessionOut → Prop
  | .event (.nicknameReceived _) => h.stage = 0
  | .event (.loginPinRequest pinIncorrect) => h.Alive ∧ h.stage ≤ 2 ∧ pinIncorrect = h.pinRequested
  | .event (.holepunch false) => h.Alive ∧ h.stage ≤ 2
  | .event (.holepunch true) => h.stage = 3
  | .event (.keyboardOpen _) | .event (.keyboardTextChange _) | .event .keyboardRemoteClose => h.Alive
  | .event (.quit _ _) => h.stage < 6
  | .request attempt target _ =>
      h.stage ≤ 1 ∧ attempt = h.requests + 1 ∧ attempt ≤ 3 ∧ target.isUnknown = false
  | .stream out => h.Alive ∧ h.stream.Permitted lib out
  | .pinEntered pin => pin.entry = h.entered.length
  | .pinSent pin => h.Alive ∧ h.entered[pin.entry]? = some pin.pin ∧ h.sent ≤ pin.entry
  | .allocated _ | .freed _ => True

end SessionHistory

/-! ## The invariant -/

inductive SessionZone where
  | regist | request | ctrl | streaming | stopping | finished
  deriving DecidableEq, Repr

def SessionWait.zone : SessionWait → SessionZone
  | regist => .regist
  | settle => .request
  | _ => .ctrl

def SessionWait.stage : SessionWait → Nat
  | regist | settle => 1
  | ctrlStart | pin | pinReply => 2
  | holepunch | switch => 4

namespace SessionThread

def zone : SessionThread → SessionZone
  | start | begun | registJoin | registered => .regist
  | request _ | connectNext _ _ | connecting _ _ | send _ | receiving _ | requestDone _ _ => .request
  | check wait | waiting wait | done wait => wait.zone
  | streaming => .streaming
  | ctrlStop | ctrlJoin => .stopping
  | quitting | ended => .finished
  | _ => .ctrl

/-- How far the log may be. -/
def stage : SessionThread → Nat
  | start | begun => 0
  | check wait | waiting wait | done wait => wait.stage
  | pinLoop | forwarding | punchHole => 2
  | punched => 3
  | sessionId | fallback | fallbackSet | fallbackDone _ | senkusha | switch | startStream => 4
  | ctrlFailed | streaming | ctrlStop | ctrlJoin | quitting => 5
  | ended => 6
  | _ => 1

/-- How many requests were sent. -/
def Requested (requests : Nat) : SessionThread → Prop
  | request attempt | connectNext attempt _ | connecting attempt _ | send attempt =>
      attempt = requests + 1 ∧ attempt ≤ 3
  | receiving attempt => attempt = requests ∧ 0 < attempt ∧ attempt ≤ 3
  | requestDone attempt err =>
      0 < attempt ∧ attempt ≤ 3 ∧ (err = .success ∨ err = .versionMismatch → attempt = requests)
  | thread =>
      match thread.zone with
      | .regist => requests = 0
      | .finished => True
      | _ => 0 < requests

/-- What the thread of the registration does meanwhile. -/
def Registers (regist : SessionRegistThread) : SessionThread → Prop
  | start | begun => regist = .none
  | check .regist | waiting .regist | done .regist | registJoin => regist ≠ .none
  | registered => regist = .ended
  | _ => regist = .none ∨ regist = .ended

end SessionThread

namespace SessionZone

/-- What the ctrl thread does meanwhile. -/
def Controls (ctrl : SessionCtrlThread) : SessionZone → Prop
  | regist | request => ctrl = .none
  | finished => ctrl = .none ∨ ctrl = .ended
  | _ => ctrl ≠ .none

/-- What the stream connection does meanwhile. -/
def Streams (run : RunThread) : SessionZone → Prop
  | streaming => True
  | stopping | finished => run = .start ∨ ∃ err, run = .returned err
  | _ => run = .start

end SessionZone

structure SessionPlace (h : SessionHistory) (registThread : SessionRegistThread) (ctrlThread : SessionCtrlThread)
    (runThread : RunThread) (p : SessionThread) : Prop where
  stage : h.stage ≤ p.stage
  requests : p.Requested h.requests
  regist : p.Registers registThread
  running : registThread = .running → h.stage = 0
  ctrl : p.zone.Controls ctrlThread
  stream : p.zone.Streams runThread
  punching : p = .punched → h.stage = 3
  reported : p = .ended → h.stage = 6

/-- The PINs of the session and of ctrl were entered and not sent yet, that of ctrl before that of the session. -/
structure SessionPins (h : SessionHistory) (count : Nat) (pin ctrlPin : Option LoginPin) : Prop where
  entries : count = h.entered.length
  sent : h.sent ≤ count
  own : ∀ p, pin = some p → h.entered[p.entry]? = some p.pin ∧ h.sent ≤ p.entry
  given : ∀ p, ctrlPin = some p → h.entered[p.entry]? = some p.pin ∧ h.sent ≤ p.entry
  order : ∀ p q, ctrlPin = some p → pin = some q → p.entry < q.entry

section Places
variable {h : SessionHistory} {registThread : SessionRegistThread} {ctrlThread : SessionCtrlThread}
  {runThread : RunThread} {p : SessionThread}

/-- From one point to another one of the same zone. -/
theorem SessionPlace.move (place : SessionPlace h registThread ctrlThread runThread p) (q : SessionThread)
    (zone : q.zone = p.zone) (stage : p.stage ≤ q.stage) (requests : p.Requested h.requests → q.Requested h.requests)
    (regist : p.Registers registThread → q.Registers registThread) (other : q ≠ .punched ∧ q ≠ .ended) :
    SessionPlace h registThread ctrlThread runThread q where
  stage := place.stage.trans stage
  requests := requests place.requests
  regist := regist place.regist
  running := place.running
  ctrl := by
    rw [zone]
    exact place.ctrl
  stream := by
    rw [zone]
    exact place.stream
  punching := fun now => absurd now other.1
  reported := fun now => absurd now other.2

theorem SessionPlace.alive (place : SessionPlace h registThread ctrlThread runThread p)
    (requested : p.Requested h.requests → 0 < h.requests) (stage : p.stage < 6) : h.Alive :=
  ⟨requested place.requests, lt_of_le_of_lt place.stage stage⟩

/-- To the end, before ctrl is started. -/
theorem SessionPlace.quits (place : SessionPlace h registThread .none .start p)
    (joined : registThread = .none ∨ registThread = .ended) (stage : p.stage ≤ 5) :
    SessionPlace h registThread .none .start .quitting where
  stage := place.stage.trans stage
  requests := trivial
  regist := joined
  running := place.running
  ctrl := .inl rfl
  stream := .inl rfl
  punching := fun now => by cases now
  reported := fun now => by cases now

/-- To the end, once ctrl was started. -/
theorem SessionPlace.quitsCtrl (place : SessionPlace h registThread ctrlThread runThread p)
    (zone : p.zone = .ctrl ∨ p.zone = .stopping ∨ p.zone = .streaming ∧ ∃ err, runThread = .returned err)
    (requested : p.Requested h.requests → 0 < h.requests)
    (regist : p.Registers registThread → registThread = .none ∨ registThread = .ended) (stage : p.stage ≤ 5) :
    SessionPlace h registThread ctrlThread runThread .ctrlStop where
  stage := place.stage.trans stage
  requests := requested place.requests
  regist := regist place.regist
  running := place.running
  ctrl := by
    have ctrl := place.ctrl
    rcases zone with there | there | ⟨there, -⟩ <;> rw [there] at ctrl <;> exact ctrl
  stream := by
    have stream := place.stream
    rcases zone with there | there | ⟨there, err, returned⟩
    · rw [there] at stream
      exact .inl stream
    · rw [there] at stream
      exact stream
    · exact .inr ⟨err, returned⟩
  punching := fun now => by cases now
  reported := fun now => by cases now

/-- The ctrl thread moves on. -/
theorem SessionPlace.control (place : SessionPlace h registThread ctrlThread runThread p)
    (runs : ctrlThread ≠ .none ∧ ctrlThread ≠ .ended) {next : SessionCtrlThread} (started : next ≠ .none) :
    SessionPlace h registThread next runThread p := by
  have ctrl := place.ctrl
  refine { place with ctrl := ?_ }
  cases zone : p.zone with
  | regist | request =>
      rw [zone] at ctrl
      exact absurd ctrl runs.1
  | finished =>
      rw [zone] at ctrl
      rcases ctrl with none | ended
      · exact absurd none runs.1
      · exact absurd ended runs.2
  | ctrl | streaming | stopping => exact started

/-- While the ctrl thread runs, the console has accepted a request. -/
theorem SessionPlace.controlled (place : SessionPlace h registThread ctrlThread runThread p)
    (runs : ctrlThread ≠ .none ∧ ctrlThread ≠ .ended) : h.Alive := by
  have ctrl := place.ctrl
  have requests := place.requests
  have stage := place.stage
  cases p with
  | check wait | waiting wait | done wait =>
      cases wait with
      | regist | settle => exact absurd ctrl runs.1
      | _ => exact ⟨requests, lt_of_le_of_lt stage (by simp [SessionThread.stage, SessionWait.stage])⟩
  | quitting | ended =>
      rcases ctrl with none | ended
      · exact absurd none runs.1
      · exact absurd ended runs.2
  | start | begun | registJoin | registered | request | connectNext | connecting | send | receiving | requestDone =>
      exact absurd ctrl runs.1
  | _ => exact ⟨requests, lt_of_le_of_lt stage (by simp [SessionThread.stage])⟩

/-- A registration that goes on or is about to report is waited for. -/
theorem registers_of_begun (there : p.Registers registThread) (begun : registThread ≠ .none ∧ registThread ≠ .ended) :
    p = .check .regist ∨ p = .waiting .regist ∨ p = .done .regist ∨ p = .registJoin := by
  cases p with
  | check wait | waiting wait | done wait =>
      cases wait with
      | regist => simp
      | _ => simp [SessionThread.Registers, begun] at there
  | registJoin => simp
  | _ => simp [SessionThread.Registers, begun] at there

theorem SessionPlace.register (place : SessionPlace h registThread ctrlThread runThread p)
    (begun : registThread ≠ .none ∧ registThread ≠ .ended) {next : SessionRegistThread}
    (after : next ≠ .none ∧ next ≠ .running) {stage : Nat} (early : stage ≤ 1) :
    SessionPlace { h with stage := stage } next ctrlThread runThread p := by
  rcases registers_of_begun place.regist begun with rfl | rfl | rfl | rfl
  all_goals
    exact ⟨early, place.requests, after.1, fun now => absurd now after.2, place.ctrl, place.stream,
      (fun now => by cases now), fun now => by cases now⟩

theorem not_running (joined : registThread = .none ∨ registThread = .ended) :
    registThread ≠ .running := by
  rcases joined with rfl | rfl <;> simp

end Places

namespace Session

structure Consistent (s : Session) (h : SessionHistory) : Prop where
  place : SessionPlace h s.registThread s.ctrl.thread s.stream.runThread s.thread
  pins : SessionPins h s.entries s.loginPin s.ctrl.loginPin
  entered : s.loginPinEntered = s.loginPin.isSome
  ctrlEntered : s.ctrl.loginPinEntered = s.ctrl.loginPin.isSome
  ready : s.thread = .done .pin → s.condition .pin = true
  forwards : s.thread = .forwarding → s.loginPin.isSome = true
  pinRequested : h.pinRequested = s.pinIncorrect
  target : s.target.isUnknown = false
  stream : s.stream.Consistent h.stream

open SessionHistory

/-- Everything the step sends and reports is permitted, and the invariant holds behind it. -/
def Keeps (lib : StreamConnectionLib) (h : SessionHistory) (r : Result) : Prop :=
  Follows next (Permitted lib) h r.2 ∧ Consistent r.1 (r.2.foldl next h)

end Session
end Chiaki
