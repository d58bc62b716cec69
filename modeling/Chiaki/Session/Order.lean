import Chiaki.Session.ThreadSteps

/-!
# The order of a session

The other threads keep the invariant as well, and so does every run.
-/

namespace Chiaki.Session
open Machine SessionHistory

/-! ## The other threads -/

section Others
variable {cfg : SessionConfig} {s : Session} {h : SessionHistory} {r : Result} {lib : StreamConnectionLib}

theorem setCtrl_keeps (fits : s.Consistent h) (runs : s.ctrl.thread ≠ .none ∧ s.ctrl.thread ≠ .ended)
    {next : SessionCtrlThread} (started : next ≠ .none) : Keeps lib h (s.setCtrl next) :=
  ⟨trivial, { fits with place := fits.place.control runs started }⟩

theorem share_keeps (fits : s.Consistent h) (runs : s.ctrl.thread ≠ .none ∧ s.ctrl.thread ≠ .ended)
    (notice : CtrlNotice) (next : CtrlThen) : Keeps lib h (s.share notice next) :=
  setCtrl_keeps fits runs (by simp)

theorem event_keeps (fits : s.Consistent h) {out : SessionOut} (permitted : h.Permitted lib out)
    (same : h.next out = h) : Keeps lib h (s, [out]) := by
  refine ⟨⟨permitted, trivial⟩, ?_⟩
  rw [List.foldl_cons, same]
  exact fits

theorem ctrlMessage_keeps (fits : s.Consistent h) (busy : s.ctrl.thread = .busy) (content : CtrlContent) :
    Keeps lib h (s.ctrlMessage content) := by
  have runs : s.ctrl.thread ≠ .none ∧ s.ctrl.thread ≠ .ended := by simp [busy]
  have alive := fits.place.controlled runs
  cases content with
  | sessionId accepted =>
      simp only [ctrlMessage]
      split
      · exact idle_keeps fits
      · exact share_keeps fits runs .sessionId .goOn
  | loginPinRequest =>
      have fits' : { s with ctrl := { s.ctrl with loginPinRequested := true } }.Consistent h := { fits with }
      exact share_keeps fits' runs .loginPinRequest .goOn
  | login state =>
      simp only [ctrlMessage]
      split
      · exact ⟨trivial, { fits with }⟩
      · split
        · exact share_keeps fits runs .loginPinRequest .goOn
        · exact idle_keeps fits
  | switchAck =>
      simp only [ctrlMessage]
      split
      · exact idle_keeps fits
      · exact share_keeps fits runs .switchReceived .goOn
  | keyboardOpen text => exact event_keeps fits alive rfl
  | keyboardTextChange text => exact event_keeps fits alive rfl
  | keyboardRemoteClose => exact event_keeps fits alive rfl
  | other => exact idle_keeps fits

theorem ctrlCanceled_keeps (fits : s.Consistent h) (selecting : s.ctrl.thread = .selecting) (sent : Bool) :
    Keeps lib h (s.ctrlCanceled sent) := by
  have runs : s.ctrl.thread ≠ .none ∧ s.ctrl.thread ≠ .ended := by simp [selecting]
  have busy := fits.place.control runs (show SessionCtrlThread.busy ≠ .none by simp)
  unfold ctrlCanceled
  cases entered : s.ctrl.loginPinEntered with
  | false =>
      simp only [Bool.false_eq_true, if_false]
      split
      · exact setCtrl_keeps fits runs (by simp)
      · exact ⟨trivial, { fits with place := busy }⟩
  | true =>
      obtain ⟨pin, given⟩ := Option.isSome_iff_exists.mp (fits.ctrlEntered.symm.trans entered)
      have told := fits.pins.given pin given
      have within := (List.getElem?_eq_some_iff.mp told.1).1
      simp only [if_true, given]
      refine ⟨⟨⟨fits.place.controlled runs, told⟩, trivial, trivial⟩, { fits with
        place := { busy with }
        pins := {
          entries := fits.pins.entries
          sent := ?_
          own := fun q there => ⟨(fits.pins.own q there).1, fits.pins.order pin q given there⟩
          given := fun p now => by cases now
          order := fun p q now => by cases now }
        ctrlEntered := rfl }⟩
      have entries := fits.pins.entries
      show pin.entry + 1 ≤ s.entries
      rw [entries]
      exact within

theorem ctrlSelected_keeps (fits : s.Consistent h) (selecting : s.ctrl.thread = .selecting) (result : CtrlSelect) :
    Keeps lib h (s.ctrlSelected result) := by
  have runs : s.ctrl.thread ≠ .none ∧ s.ctrl.thread ≠ .ended := by simp [selecting]
  cases result with
  | canceled sent =>
      simp only [ctrlSelected]
      split
      · exact ctrlCanceled_keeps fits selecting sent
      · exact idle_keeps fits
  | error => exact setCtrl_keeps fits runs (by simp)
  | closed =>
      simp only [ctrlSelected]
      split
      · exact idle_keeps fits
      · exact setCtrl_keeps fits runs (by simp)
  | recvFailed => exact share_keeps fits runs _ _
  | rudpFinish =>
      simp only [ctrlSelected]
      split
      · exact share_keeps fits runs _ _
      · exact idle_keeps fits
  | received => exact setCtrl_keeps fits runs (by simp)

theorem notice_consistent (fits : s.Consistent h) (notice : CtrlNotice) : (s.notice notice).Consistent h := by
  cases notice with
  | failed reason => exact { fits with ready := fun _ => by simp [Session.notice, condition] }
  | _ => exact { fits with }

theorem afterNotice_keeps (fits : s.Consistent h) (runs : s.ctrl.thread ≠ .none ∧ s.ctrl.thread ≠ .ended)
    (next : CtrlThen) : Keeps lib h (s.afterNotice next) := by
  cases next with
  | goOn => exact setCtrl_keeps fits runs (by simp)
  | connectFailed => exact share_keeps fits runs _ _
  | leave => exact setCtrl_keeps fits runs (by simp)

theorem notice_ctrl (s : Session) (notice : CtrlNotice) : (s.notice notice).ctrl = s.ctrl := by
  cases notice <;> rfl

theorem stepCtrl_keeps (fits : s.Consistent h) (op : SessionCtrlOp) : Keeps lib h (s.stepCtrl op) := by
  unfold stepCtrl
  split
  case h_1 connect there =>
    have runs : s.ctrl.thread ≠ .none ∧ s.ctrl.thread ≠ .ended := by simp [there]
    cases connect with
    | failed => exact share_keeps fits runs _ _
    | noSocket =>
        simp only [enterCtrl]
        split <;> exact share_keeps fits runs _ _
    | goesOn =>
        simp only [enterCtrl]
        split <;> exact setCtrl_keeps fits runs (by simp)
  case h_2 connect answered there =>
    have runs : s.ctrl.thread ≠ .none ∧ s.ctrl.thread ≠ .ended := by simp [there]
    unfold ctrlConnected
    split
    · split
      · exact share_keeps fits runs _ _
      · exact idle_keeps fits
    · split
      · exact share_keeps fits runs _ _
      · split
        · exact share_keeps fits runs _ _
        · split
          · exact setCtrl_keeps fits runs (by simp)
          · exact share_keeps fits runs _ _
  case h_3 content there => exact ctrlMessage_keeps fits there content
  case h_4 there => exact share_keeps fits (by simp [there]) _ _
  case h_5 there => exact setCtrl_keeps fits (by simp [there]) (by simp)
  case h_6 result there => exact ctrlSelected_keeps fits there result
  case h_7 notice next there =>
    split
    · refine afterNotice_keeps (notice_consistent fits notice) ?_ next
      rw [notice_ctrl, there]
      simp
    · exact idle_keeps fits
  case h_8 => exact idle_keeps fits

theorem stepRegist_keeps (fits : s.Consistent h) (success : Bool) (nickname registKey : Bytes) :
    Keeps lib h (s.stepRegist cfg success nickname registKey) := by
  unfold stepRegist
  split
  case isTrue running =>
    have begun : s.registThread ≠ .none ∧ s.registThread ≠ .ended := by simp [running]
    have start := fits.place.running running
    have place (stage : Nat) (early : stage ≤ 1) :=
      @SessionPlace.register h _ _ _ _ fits.place begun (.sharing success) (by simp) stage early
    have silent : ({ s with registThread := .sharing success } : Session).Consistent h := by
      have same := place h.stage (by rw [start]; exact Nat.zero_le _)
      exact { fits with place := same }
    dsimp only
    split
    · split
      · exact ⟨trivial, { silent with }⟩
      · exact ⟨⟨start, trivial⟩, { silent with
          place := place 1 (le_refl _)
          pins := { fits.pins with } }⟩
    · exact ⟨trivial, silent⟩
  · exact idle_keeps fits

theorem stepRegistShare_keeps (fits : s.Consistent h) : Keeps lib h s.stepRegistShare := by
  unfold stepRegistShare
  split
  case h_1 success sharing =>
    have begun : s.registThread ≠ .none ∧ s.registThread ≠ .ended := by simp [sharing]
    have early : h.stage ≤ 1 := by
      have stage := fits.place.stage
      rcases registers_of_begun fits.place.regist begun with there | there | there | there <;>
        rw [there] at stage <;> exact stage
    have place := @SessionPlace.register h _ _ _ _ fits.place begun .ended (by simp) h.stage early
    split
    · split
      · exact ⟨trivial, { fits with place := place }⟩
      · exact ⟨trivial, { fits with
          place := place
          ready := fun _ => by simp [condition] }⟩
    · exact idle_keeps fits
  · exact idle_keeps fits

/-! ### The stream connection -/

/-- What the stream connection sends and reports is permitted as it is there. -/
theorem follows_stream {outs : List StreamConnectionOut} (alive : h.Alive)
    (follows : Follows StreamHistory.next (StreamHistory.Permitted lib) h.stream outs) :
    Follows next (Permitted lib) h (outs.map .stream) ∧ ∃ stage ≤ max h.stage 5,
      (outs.map SessionOut.stream).foldl next h = { h with stage := stage, stream := outs.foldl .next h.stream } := by
  induction outs generalizing h with
  | nil => exact ⟨trivial, h.stage, le_max_left _ _, rfl⟩
  | cons out outs ih =>
      obtain ⟨permitted, rest⟩ := follows
      obtain ⟨later, stage, few, eq⟩ := @ih { h with stage := 5, stream := h.stream.next out } ⟨alive.1, by simp⟩ rest
      refine ⟨⟨⟨alive, permitted⟩, later⟩, stage, ?_, eq⟩
      exact few.trans (by simp)

/-- Where the stream connection does not run, no step of another thread makes it say anything. -/
theorem quiet_stream {s : StreamConnection} {h : StreamHistory} {op : StreamConnectionOp}
    {r : StreamConnection.Result} (fits : s.Consistent h)
    (resting : s.runThread = .start ∨ ∃ err, s.runThread = .returned err)
    (step : StreamConnection.Other lib s op r) :
    r.2 = [] ∧ r.1.runThread = s.runThread ∧ r.1.remoteDisconnectReason = s.remoteDisconnectReason := by
  have joined : s.takionThread = .none ∨ s.takionThread = .ended := by
    have place := fits.place
    rcases resting with there | ⟨err, there⟩
    · rw [there] at place
      exact .inl place.2.1
    · rw [there] at place
      exact place.2.1
  have deaf : s.takionThread ≠ .receiving := by
    rcases joined with there | there <;> simp [there]
  have waits : r.1.runThread = s.runThread := by
    rcases (StreamConnection.other_calm step).2 with same | woken
    · exact same
    · rcases resting with there | ⟨err, there⟩ <;> rw [woken, there] <;> rfl
  cases step with
  | disconnected reason receiving => exact absurd receiving deaf
  | keyed secret receiving => exact absurd receiving deaf
  | answered o header known told receiving => exact absurd receiving deaf
  | rumble unknown left right receiving => exact absurd receiving deaf
  | triggerEffects typeLeft typeRight left right receiving => exact absurd receiving deaf
  | av receiver receiving => exact absurd receiving deaf
  | takion thread isConnected begun =>
      refine ⟨rfl, waits, ?_⟩
      unfold StreamConnection.takionConnection
      split <;> rfl
  | _ => exact ⟨rfl, waits, rfl⟩

theorem Consistent.resting (fits : s.Consistent h) (zone : s.thread.zone ≠ .streaming) :
    s.stream.runThread = .start ∨ ∃ err, s.stream.runThread = .returned err := by
  have stream := fits.place.stream
  cases there : s.thread.zone with
  | streaming => exact absurd there zone
  | stopping | finished =>
      rw [there] at stream
      exact stream
  | regist | request | ctrl =>
      rw [there] at stream
      exact .inl stream

/-- A step of another thread than the one that runs the stream connection. -/
theorem quietStream_keeps {op : StreamConnectionOp} {r : StreamConnection.Result} (fits : s.Consistent h)
    (zone : s.thread.zone ≠ .streaming) (step : StreamConnection.Other lib s.stream op r) :
    Keeps lib h ({ s with stream := r.1 }, r.2.map .stream) := by
  have quiet := quiet_stream fits.stream (fits.resting zone) step
  have inner := StreamConnection.other_keeps fits.stream step
  have stream := inner.2
  have place := fits.place
  rw [← quiet.2.1] at place
  rw [quiet.1] at stream ⊢
  exact ⟨trivial, { fits with place := place, stream := stream }⟩

theorem not_streaming {p : SessionThread} (elsewhere : p ≠ .streaming) : p.zone ≠ .streaming := by
  intro zone
  cases p with
  | streaming => exact elsewhere rfl
  | check wait | waiting wait | done wait => cases wait <;> simp [SessionThread.zone, SessionWait.zone] at zone
  | _ => simp [SessionThread.zone] at zone

theorem stepStream_keeps {op : StreamConnectionOp} (fits : s.Consistent h)
    (other : s.thread = .streaming ∨ (∀ o, op ≠ .run o) ∧ ∀ timeout o, op ≠ .wake timeout o)
    (done : s.stepStream cfg op = .ok r) : Keeps cfg.lib h r := by
  obtain ⟨inner, stepped, done⟩ := bind_eq_ok done
  cases done
  by_cases there : s.thread = .streaming
  · have place := fits.place
    rw [there] at place
    obtain ⟨follows, stream⟩ := StreamConnection.step_keeps fits.stream stepped
    obtain ⟨permitted, stage, few, eq⟩ := follows_stream (place.alive id (by decide)) follows
    refine ⟨permitted, ?_⟩
    rw [eq]
    exact { fits with
      place := by
        rw [there]
        exact ⟨few.trans (max_le place.stage (le_refl _)), place.requests, place.regist,
          fun running => absurd running (not_running place.regist), place.ctrl, trivial,
          (fun now => by cases now), fun now => by cases now⟩
      pins := { fits.pins with }
      stream := stream }
  · obtain ⟨notRun, notWake⟩ := other.resolve_left there
    have zone := not_streaming there
    rcases StreamConnection.step_cases stepped with ⟨o, run, -⟩ | ⟨timeout, o, wake, -⟩ | ⟨-, -, step⟩
    · exact absurd run (notRun o)
    · exact absurd wake (notWake timeout o)
    · exact quietStream_keeps fits zone step

theorem setLoginPin_keeps (fits : s.Consistent h) (pin : Bytes) : Keeps lib h (s.setLoginPin pin) := by
  have entries := fits.pins.entries
  have buffers := @follows_buffers { h with entered := h.entered ++ [pin] } lib
    (.allocated s.buffers :: (if s.loginPinEntered then freePin s.loginPin else [])) (fun out there => by
      rcases List.mem_cons.mp there with rfl | there
      · exact ⟨_, .inl rfl⟩
      · split at there
        · exact freePin_buffers _ out there
        · cases there)
  refine ⟨⟨entries, buffers.1⟩, ?_⟩
  have history : (s.setLoginPin pin).2.foldl next h = { h with entered := h.entered ++ [pin] } := buffers.2
  rw [history]
  have kept {p : LoginPin} (told : h.entered[p.entry]? = some p.pin ∧ h.sent ≤ p.entry) :
      (h.entered ++ [pin])[p.entry]? = some p.pin ∧ h.sent ≤ p.entry :=
    ⟨by rw [List.getElem?_append_left (List.getElem?_eq_some_iff.mp told.1).1]; exact told.1, told.2⟩
  refine { fits with
    place := { fits.place with }
    pins := { entries := ?_, sent := ?_, own := ?_, given := ?_, order := ?_ }
    entered := rfl
    ready := fun _ => by simp [Session.setLoginPin, condition]
    forwards := fun _ => rfl }
  · simp [Session.setLoginPin, entries]
  · exact fits.pins.sent.trans (Nat.le_succ _)
  · intro p now
    cases now
    exact ⟨by simp [entries], fits.pins.sent⟩
  · exact fun p there => kept (fits.pins.given p there)
  · intro p q given now
    cases now
    show p.entry < s.entries
    rw [entries]
    exact (List.getElem?_eq_some_iff.mp (fits.pins.given p given).1).1

end Others

/-! ## Runs -/

theorem step_keeps {cfg : SessionConfig} {s : Session} {h : SessionHistory} {op : SessionOp} {r : Result}
    (fits : s.Consistent h) (done : step cfg s op = .ok r) : Keeps cfg.lib h r := by
  cases op with
  | run o => exact stepRun_keeps fits done
  | wake timeout =>
      cases done
      exact stepWake_keeps fits timeout
  | ctrl op =>
      cases done
      exact stepCtrl_keeps fits op
  | regist success nickname registKey =>
      cases done
      exact stepRegist_keeps fits success nickname registKey
  | registShare =>
      cases done
      exact stepRegistShare_keeps fits
  | stream op =>
      simp only [step] at done
      split at done
      case isTrue allowed =>
        refine stepStream_keeps fits ?_ done
        cases op with
        | run | wake => exact .inl (by simpa [streams] using allowed)
        | _ => exact .inr (by simp)
      · cases done
        exact idle_keeps fits
  | stop =>
      simp only [step] at done
      split at done
      · cases done
        exact ⟨trivial, { fits with ready := fun _ => by simp [condition] }⟩
      · cases done
        exact idle_keeps fits
  | stopStream =>
      simp only [step] at done
      split at done
      · have fits' : { s with stopCall := .signalling }.Consistent h := { fits with }
        exact stepStream_keeps fits' (.inr (by simp)) done
      · cases done
        exact idle_keeps fits
  | stopSignal =>
      simp only [step] at done
      split at done
      · have fits' : { s with stopCall := .none }.Consistent h := { fits with }
        exact stepStream_keeps fits' (.inr (by simp)) done
      · cases done
        exact idle_keeps fits
  | setLoginPin pin malloc =>
      cases done
      split
      · exact setLoginPin_keeps fits pin
      · exact idle_keeps fits
  | setControllerState state => exact stepStream_keeps fits (.inr (by simp)) done
  | ctrlNotified =>
      cases done
      exact ⟨trivial, { fits with }⟩

section Runs
variable {cfg : SessionConfig} {registKey nonce : Bytes} {controllerState : ControllerState} {ops : List SessionOp}
  {s : Session} {outs : List (List SessionOut)}

theorem init_consistent (cfg : SessionConfig) (registKey nonce : Bytes) (controllerState : ControllerState) :
    (init cfg registKey nonce controllerState).Consistent {} where
  place := ⟨le_refl _, rfl, rfl, fun _ => rfl, rfl, rfl, (fun now => by cases now), fun now => by cases now⟩
  pins :=
    { entries := rfl
      sent := le_refl _
      own := fun p now => by cases now
      given := fun p now => by cases now
      order := fun p q now => by cases now }
  entered := rfl
  ctrlEntered := rfl
  ready := fun now => by cases now
  forwards := fun now => by cases now
  pinRequested := rfl
  target := by
    show (if cfg.ps5 then Target.ps5_1 else Target.ps4_10).isUnknown = false
    split <;> rfl
  stream := StreamConnection.init_consistent controllerState

theorem run_keeps (done : run (step cfg) (init cfg registKey nonce controllerState) ops = .ok (s, outs)) :
    Follows next (Permitted cfg.lib) {} outs.flatten ∧ s.Consistent (outs.flatten.foldl next {}) :=
  (along_true (init cfg registKey nonce controllerState) ops).follows Consistent
    (fun _ _ _ _ _ fits _ stepped => step_keeps fits stepped) (init_consistent cfg registKey nonce controllerState) done

def sampleConfig : SessionConfig where
  lib := StreamConnection.sampleLib
  charSigned := false
  ps5 := true
  holepunchSession := false
  hostAddrinfos := [.inet6, .inet]

def sampleRequest : RequestResult := ⟨.success, by simp⟩

def sampleOutcome : SessionOutcome where
  rudpInstance := true
  rudpInit := sampleRequest
  rudpCookie := sampleRequest
  mallocSockaddr := true
  getnameinfo := none
  socket := true
  looksAtStopPipe := true
  connect := ⟨.connectionRefused, by simp⟩
  holepunchAddr := []
  holepunchPort := 0
  send := true
  recv := sampleRequest
  rudpFinish := sampleRequest
  response := none
  ctrlThread := true
  mallocPin := true
  punchHole := true
  fallback := .success
  senkushaInit := true
  senkusha := none
  sendSwitch := true
  randomBytes := true
  ecdhInit := true
  strdup := true

/-- The console refuses the first connection, and the session is stopped during the second one. -/
def sampleStopped : List SessionOp :=
  List.replicate 6 (.run sampleOutcome) ++ [.stop, .stopStream, .stopSignal] ++ List.replicate 3 (.run sampleOutcome)

end Runs

end Chiaki.Session
