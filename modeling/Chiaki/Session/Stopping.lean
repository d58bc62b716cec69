import Chiaki.Lib.Runs
import Chiaki.Session.Order

/-!
# Stopping a session

Once the session is to stop, its thread takes only so many steps. What can keep it from the last one are the threads
that it waits for, and two threads can wait for each other.
-/

namespace Chiaki
open Machine

def SessionWait.stepsLeft : SessionWait → Nat
  | settle => 6
  | _ => 4

/-- The steps left for the thread when the session is to stop and the host has `n` addresses. -/
def SessionThread.stepsLeft (n : Nat) : SessionThread → Nat
  | start | registJoin => 3
  | begun | registered => 2
  | request attempt => 12 + (3 - attempt) * (2 * n + 5) + 2 * n
  | connecting attempt addrinfos => 12 + (3 - attempt) * (2 * n + 5) + 2 * addrinfos.length
  | connectNext attempt addrinfos => 11 + (3 - attempt) * (2 * n + 5) + 2 * addrinfos.length
  | send attempt => 10 + (3 - attempt) * (2 * n + 5)
  | receiving attempt => 9 + (3 - attempt) * (2 * n + 5)
  | requestDone attempt _ => 8 + (3 - attempt) * (2 * n + 5)
  | waiting wait => wait.stepsLeft + 2
  | check wait => wait.stepsLeft + 1
  | done wait => wait.stepsLeft
  | pinLoop => 13
  | punchHole => 12
  | sessionId => 11
  | fallback => 10
  | fallbackSet => 9
  | fallbackDone _ => 8
  | senkusha => 7
  | forwarding | punched | switch => 6
  | startStream => 5
  | ctrlFailed | streaming => 4
  | ctrlStop => 3
  | ctrlJoin => 2
  | quitting => 1
  | ended => 0

/-- Every call fails. -/
def SessionOutcome.failing : SessionOutcome where
  rudpInstance := false
  rudpInit := ⟨.unknown, by simp⟩
  rudpCookie := ⟨.unknown, by simp⟩
  mallocSockaddr := false
  getnameinfo := none
  socket := false
  looksAtStopPipe := false
  connect := ⟨.unknown, by simp⟩
  holepunchAddr := []
  holepunchPort := 0
  send := false
  recv := ⟨.unknown, by simp⟩
  rudpFinish := ⟨.unknown, by simp⟩
  response := none
  ctrlThread := false
  mallocPin := false
  punchHole := false
  fallback := .unknown
  senkushaInit := false
  senkusha := none
  sendSwitch := false
  randomBytes := false
  ecdhInit := false
  strdup := false

namespace Session

/-- The step is one that the thread of the session takes. -/
def moves (cfg : SessionConfig) (s : Session) (op : SessionOp) : Bool :=
  match step cfg s op with
  | .ok r => r.1.thread ≠ s.thread
  | .error _ => false

/-! ## The thread of the session -/

/-- The session is still to stop, and its thread has not moved or is nearer to the end. -/
def Descends (n : Nat) (s : Session) (r : Result) : Prop :=
  r.1.shouldStop = true ∧ (r.1.thread = s.thread ∨ r.1.thread.stepsLeft n < s.thread.stepsLeft n)

section Thread
variable {cfg : SessionConfig} {n : Nat} {s : Session} {o : SessionOutcome} {r : Result}

theorem go_descends (stop : s.shouldStop = true) {p : SessionThread} (there : s.thread = p) (q : SessionThread)
    (nearer : q.stepsLeft n < p.stepsLeft n) : Descends n s (s.go q) :=
  ⟨stop, .inr (by rw [there]; exact nearer)⟩

theorem idle_descends (stop : s.shouldStop = true) : Descends n s (s, []) := ⟨stop, .inl rfl⟩

theorem checkStop_descends (stop : s.shouldStop = true) {p : SessionThread} (there : s.thread = p)
    {quit : SessionThread} (nearer : quit.stepsLeft n < p.stepsLeft n) (next : Result) :
    Descends n s (s.checkStop quit next) := by
  unfold checkStop
  rw [if_pos stop]
  exact ⟨stop, .inr (by rw [there]; exact nearer)⟩

theorem beginRequest_descends {attempt : Nat} (stop : s.shouldStop = true) (there : s.thread = .request attempt) :
    Descends cfg.hostAddrinfos.length s (s.beginRequest cfg o attempt) := by
  unfold beginRequest
  repeat' split
  all_goals exact go_descends stop there _ (by simp only [SessionThread.stepsLeft]; omega)

theorem connectNext_descends {attempt : Nat} {addrinfos : List AddressFamily} (stop : s.shouldStop = true)
    (there : s.thread = .connectNext attempt addrinfos) : Descends n s (s.connectNext o attempt addrinfos) := by
  cases addrinfos with
  | nil => exact ⟨stop, .inr (by rw [there]; simp only [SessionThread.stepsLeft, connectNext, goto]; omega)⟩
  | cons ai rest =>
      simp only [connectNext]
      split
      · exact go_descends stop there _ (by simp only [SessionThread.stepsLeft, List.length_cons]; omega)
      · refine ⟨stop, .inr ?_⟩
        rw [there]
        show SessionThread.stepsLeft n (if o.socket then .connecting attempt rest else .connectNext attempt rest) < _
        split <;> simp only [SessionThread.stepsLeft, List.length_cons] <;> omega

theorem connected_descends {attempt : Nat} {rest : List AddressFamily} (stop : s.shouldStop = true)
    (there : s.thread = .connecting attempt rest) : Descends n s (s.connected o attempt rest) := by
  unfold connected
  repeat' split
  all_goals exact ⟨stop, .inr (by rw [there]; simp only [SessionThread.stepsLeft, goto, go]; omega)⟩

theorem sendRequest_descends {attempt : Nat} (stop : s.shouldStop = true) (there : s.thread = .send attempt)
    (done : s.sendRequest cfg o attempt = .ok r) : Descends n s r := by
  unfold sendRequest at done
  dsimp only at done
  generalize hostname : (if cfg.holepunchSession then { s with hostname := o.holepunchAddr } else s) = s' at done
  have stop' : s'.shouldStop = true := by
    subst hostname
    split <;> exact stop
  have nearer (q : SessionThread) (fewer : q.stepsLeft n < (SessionThread.send attempt).stepsLeft n) :
      q = s.thread ∨ q.stepsLeft n < s.thread.stepsLeft n := .inr (by rw [there]; exact fewer)
  obtain ⟨written, -, done⟩ := bind_eq_ok done
  cases written with
  | error err =>
      cases done
      exact ⟨stop', nearer (.requestDone attempt err) (by simp only [SessionThread.stepsLeft]; omega)⟩
  | ok request =>
      dsimp only at done
      split at done
      · cases done
        exact ⟨stop', nearer (.requestDone attempt .network) (by simp only [SessionThread.stepsLeft]; omega)⟩
      · cases done
        exact ⟨stop', nearer (.receiving attempt) (by simp only [SessionThread.stepsLeft]; omega)⟩

theorem received_descends {attempt : Nat} (stop : s.shouldStop = true) (there : s.thread = .receiving attempt)
    (done : s.received cfg o attempt = .ok r) : Descends n s r := by
  have nearer (err : ErrorCode) : SessionThread.requestDone attempt err = s.thread ∨
      (SessionThread.requestDone attempt err).stepsLeft n < s.thread.stepsLeft n :=
    .inr (by rw [there]; simp only [SessionThread.stepsLeft]; omega)
  unfold received at done
  split at done
  · cases done
    exact ⟨stop, nearer _⟩
  · split at done
    · cases done
      exact ⟨stop, nearer _⟩
    · split at done
      · cases done
        exact ⟨stop, nearer _⟩
      · split at done
        · cases done
          exact ⟨stop, nearer _⟩
        · obtain ⟨rpVersion, -, done⟩ := bind_eq_ok done
          obtain ⟨answer, -, done⟩ := bind_eq_ok done
          cases done
          exact ⟨stop, nearer _⟩

theorem requestDone_descends {attempt : Nat} {err : ErrorCode} (stop : s.shouldStop = true)
    (there : s.thread = .requestDone attempt err) : Descends n s (s.requestDone attempt err) := by
  unfold requestDone
  split
  case isTrue again =>
    refine ⟨stop, .inr ?_⟩
    rw [there]
    show 12 + (3 - (attempt + 1)) * (2 * n + 5) + 2 * n < 8 + (3 - attempt) * (2 * n + 5)
    obtain ⟨k, left⟩ : ∃ k, 3 - attempt = k + 1 := ⟨2 - attempt, by omega⟩
    rw [show 3 - (attempt + 1) = k by omega, left, Nat.add_mul, Nat.one_mul]
    omega
  case isFalse =>
    split
    all_goals exact go_descends stop there _ (by simp only [SessionThread.stepsLeft, SessionWait.stepsLeft]; omega)

theorem waited_descends {wait : SessionWait} (stop : s.shouldStop = true) (there : s.thread = .done wait)
    (done : s.waited o wait = .ok r) : Descends n s r := by
  cases wait with
  | regist =>
      cases done
      exact go_descends stop there _ (by simp [SessionThread.stepsLeft, SessionWait.stepsLeft])
  | settle =>
      cases done
      unfold startCtrl
      split
      · exact ⟨stop, .inr (by rw [there]; simp [SessionThread.stepsLeft, SessionWait.stepsLeft, goto])⟩
      · exact go_descends stop there _ (by simp [SessionThread.stepsLeft, SessionWait.stepsLeft])
  | ctrlStart | pinReply | holepunch =>
      cases done
      exact checkStop_descends stop there (by simp [SessionThread.stepsLeft, SessionWait.stepsLeft]) _
  | pin =>
      simp only [waited] at done
      rw [if_pos stop] at done
      cases done
      exact ⟨stop, .inr (by rw [there]; simp [SessionThread.stepsLeft, SessionWait.stepsLeft, goto])⟩
  | switch =>
      simp only [waited] at done
      split at done
      · cases done
        exact go_descends stop there _ (by simp [SessionThread.stepsLeft, SessionWait.stepsLeft])
      · cases done
        exact checkStop_descends stop there (by simp [SessionThread.stepsLeft, SessionWait.stepsLeft]) _

theorem condition_of_stop (stop : s.shouldStop = true) (wait : SessionWait) : s.condition wait = true := by
  cases wait <;> simp [condition, stop]

theorem runLocked_descends (stop : s.shouldStop = true) (done : s.runLocked cfg o = .ok r) :
    Descends cfg.hostAddrinfos.length s r := by
  unfold runLocked at done
  split at done
  case h_2 there =>
    cases done
    exact checkStop_descends stop there (by simp [SessionThread.stepsLeft]) _
  case h_4 there =>
    cases done
    exact checkStop_descends stop there (by simp [SessionThread.stepsLeft]) _
  case h_5 attempt there =>
    cases done
    exact beginRequest_descends stop there
  case h_6 attempt addrinfos there =>
    cases done
    exact connectNext_descends stop there
  case h_7 attempt rest there =>
    cases done
    exact connected_descends stop there
  case h_8 attempt there => exact sendRequest_descends stop there done
  case h_9 attempt there => exact received_descends stop there done
  case h_10 attempt err there =>
    cases done
    exact requestDone_descends stop there
  case h_11 wait there =>
    cases done
    rw [if_pos (condition_of_stop stop wait)]
    exact go_descends stop there _ (Nat.lt_succ_self _)
  case h_12 wait there => exact waited_descends stop there done
  case h_14 there =>
    split at done
    · cases done
      exact idle_descends stop
    · unfold forward at done
      obtain ⟨pin, -, done⟩ := bind_eq_ok done
      cases done
      refine ⟨?_, .inr (by rw [there]; simp [SessionThread.stepsLeft, SessionWait.stepsLeft, goto])⟩
      unfold ctrlSetLoginPin
      split <;> exact stop
  case h_21 there =>
    cases done
    unfold senkusha
    split
    · exact go_descends stop there _ (by simp [SessionThread.stepsLeft])
    · refine ⟨stop, .inr ?_⟩
      rw [there]
      show SessionThread.stepsLeft _ (if s.rudp then .switch else .startStream) < _
      split <;> simp [SessionThread.stepsLeft]
  case h_24 there =>
    split at done
    case h_1 err returned =>
      unfold streamDone at done
      split at done
      · obtain ⟨reason, -, done⟩ := bind_eq_ok done
        cases done
        exact ⟨stop, .inr (by rw [there]; simp [SessionThread.stepsLeft, goto])⟩
      · split at done
        all_goals
          cases done
          exact ⟨stop, .inr (by rw [there]; simp [SessionThread.stepsLeft, goto])⟩
    · cases done
      exact idle_descends stop
  case h_1 there | h_20 there =>
    cases done
    exact ⟨stop, .inr (by rw [there]; simp [SessionThread.stepsLeft, go, goto, ctrlHasFailed])⟩
  case h_18 there =>
    cases done
    exact ⟨stop, .inr (by rw [there]; simp [SessionThread.stepsLeft, go, goto])⟩
  case h_3 there =>
    cases done
    split
    · exact go_descends stop there _ (by simp [SessionThread.stepsLeft])
    · exact idle_descends stop
  case h_13 there =>
    cases done
    unfold pinLoop
    split
    · exact ⟨stop, .inr (by rw [there]; simp [SessionThread.stepsLeft, SessionWait.stepsLeft, goto])⟩
    · exact go_descends stop there _ (by simp [SessionThread.stepsLeft])
  case h_15 there =>
    cases done
    unfold punchHole
    split <;> exact ⟨stop, .inr (by rw [there]; simp [SessionThread.stepsLeft, go, goto])⟩
  case h_16 there =>
    cases done
    unfold punched
    split <;> exact ⟨stop, .inr (by rw [there]; simp [SessionThread.stepsLeft, SessionWait.stepsLeft, go, goto])⟩
  case h_17 there =>
    cases done
    exact go_descends stop there _ (by split <;> simp [SessionThread.stepsLeft])
  case h_19 err there =>
    cases done
    exact go_descends stop there _ (by split <;> simp [SessionThread.stepsLeft])
  case h_22 there =>
    cases done
    exact go_descends stop there _ (by split <;> simp [SessionThread.stepsLeft, SessionWait.stepsLeft])
  case h_23 there =>
    cases done
    exact go_descends stop there _ (by split <;> simp [SessionThread.stepsLeft])
  all_goals
    cases done
    exact idle_descends stop

theorem stepRun_descends (stop : s.shouldStop = true) (done : s.stepRun cfg o = .ok r) :
    Descends cfg.hostAddrinfos.length s r := by
  unfold stepRun at done
  split at done
  case h_1 there =>
    cases done
    unfold fallback
    repeat' split
    all_goals exact go_descends stop there _ (by simp [SessionThread.stepsLeft])
  case h_2 there =>
    split at done
    · cases done
      exact idle_descends stop
    · cases done
      exact ⟨stop, .inr (by rw [there]; simp [SessionThread.stepsLeft, go, goto])⟩
  case h_3 there =>
    split at done
    · cases done
      exact go_descends stop there _ (by simp [SessionThread.stepsLeft])
    · cases done
      exact idle_descends stop
  case h_4 there =>
    cases done
    exact ⟨stop, .inr (by rw [there]; simp [SessionThread.stepsLeft, goto])⟩
  case h_5 =>
    split at done
    · exact runLocked_descends stop done
    · cases done
      exact idle_descends stop

theorem stepWake_descends (stop : s.shouldStop = true) (timeout : Bool) : Descends n s (s.stepWake timeout) := by
  unfold stepWake
  split
  case h_1 wait there =>
    split
    · exact idle_descends stop
    · split
      · exact go_descends stop there _ (by simp only [SessionThread.stepsLeft]; omega)
      · exact go_descends stop there _ (by simp only [SessionThread.stepsLeft]; omega)
  case h_2 => exact idle_descends stop

/-! ## The other threads -/

/-- No other thread moves that of the session. -/
theorem other_stays {op : SessionOp}
    (other : (∀ o, op ≠ .run o) ∧ ∀ timeout, op ≠ .wake timeout) (done : step cfg s op = .ok r) :
    (s.shouldStop = true → r.1.shouldStop = true) ∧ r.1.thread = s.thread := by
  have stream {op : StreamConnectionOp} {t : Session} (same : t.shouldStop = s.shouldStop ∧ t.thread = s.thread)
      (stepped : t.stepStream cfg op = .ok r) :
      (s.shouldStop = true → r.1.shouldStop = true) ∧ r.1.thread = s.thread := by
    obtain ⟨inner, -, stepped⟩ := bind_eq_ok stepped
    cases stepped
    exact ⟨same.1.trans, same.2⟩
  cases op with
  | run o => exact absurd rfl (other.1 o)
  | wake timeout => exact absurd rfl (other.2 timeout)
  | ctrl op =>
      cases done
      unfold stepCtrl
      split
      case h_1 connect _ =>
        unfold enterCtrl
        repeat' split
        all_goals exact ⟨id, rfl⟩
      case h_2 =>
        unfold ctrlConnected
        repeat' split
        all_goals exact ⟨id, rfl⟩
      case h_3 =>
        unfold ctrlMessage
        repeat' split
        all_goals exact ⟨id, rfl⟩
      case h_6 =>
        unfold ctrlSelected ctrlCanceled
        repeat' split
        all_goals exact ⟨id, rfl⟩
      case h_7 notice next _ =>
        split
        · cases notice <;> cases next <;> exact ⟨id, rfl⟩
        · exact ⟨id, rfl⟩
      all_goals exact ⟨id, rfl⟩
  | regist success nickname registKey =>
      cases done
      unfold stepRegist
      repeat' split
      all_goals exact ⟨id, rfl⟩
  | registShare =>
      cases done
      unfold stepRegistShare
      repeat' split
      all_goals first | exact ⟨id, rfl⟩ | exact ⟨fun _ => rfl, rfl⟩
  | stream op =>
      simp only [step] at done
      split at done
      · exact stream ⟨rfl, rfl⟩ done
      · cases done
        exact ⟨id, rfl⟩
  | stop =>
      simp only [step] at done
      split at done
      all_goals
        cases done
        first | exact ⟨id, rfl⟩ | exact ⟨fun _ => rfl, rfl⟩
  | stopStream =>
      simp only [step] at done
      split at done
      · refine stream ?_ done
        exact ⟨rfl, rfl⟩
      · cases done
        exact ⟨id, rfl⟩
  | stopSignal =>
      simp only [step] at done
      split at done
      · refine stream ?_ done
        exact ⟨rfl, rfl⟩
      · cases done
        exact ⟨id, rfl⟩
  | setLoginPin pin malloc =>
      cases done
      split <;> exact ⟨id, rfl⟩
  | setControllerState state => exact stream ⟨rfl, rfl⟩ done
  | ctrlNotified =>
      cases done
      exact ⟨id, rfl⟩

theorem step_descends {op : SessionOp} (stop : s.shouldStop = true) (done : step cfg s op = .ok r) :
    r.1.shouldStop = true ∧ r.1.thread.stepsLeft cfg.hostAddrinfos.length + (if s.moves cfg op then 1 else 0) ≤
      s.thread.stepsLeft cfg.hostAddrinfos.length := by
  have nearer (descends : Descends cfg.hostAddrinfos.length s r) :
      r.1.shouldStop = true ∧ r.1.thread.stepsLeft cfg.hostAddrinfos.length + (if s.moves cfg op then 1 else 0) ≤
        s.thread.stepsLeft cfg.hostAddrinfos.length := by
    refine ⟨descends.1, ?_⟩
    simp only [moves, done]
    rcases descends.2 with same | fewer
    · simp [same]
    · split <;> omega
  by_cases run : ∃ o, op = .run o
  · obtain ⟨o, rfl⟩ := run
    exact nearer (stepRun_descends stop done)
  · by_cases wake : ∃ timeout, op = .wake timeout
    · obtain ⟨timeout, rfl⟩ := wake
      cases done
      exact nearer (stepWake_descends stop timeout)
    · have stays := other_stays ⟨fun o now => run ⟨o, now⟩, fun timeout now => wake ⟨timeout, now⟩⟩ done
      exact nearer ⟨stays.1 stop, .inl stays.2⟩

end Thread

/-! ## What the thread waits for -/

/-- Why the thread does not move. In the last case the library reads the reason that it could not copy. -/
inductive Blocked (s : Session) : Prop
  | ended (there : s.thread = .ended)
  | stopCall (call : s.stopCall ≠ .none)
      (wants : s.thread ≠ .fallback ∧ s.thread ≠ .ctrlStop ∧ s.thread ≠ .ctrlJoin ∧ s.thread ≠ .quitting)
  | regist (there : s.thread = .registJoin) (runs : s.registThread ≠ .ended)
  | ctrl (there : s.thread = .forwarding ∨ s.thread = .ctrlStop) (holds : s.ctrl.thread.holds = true)
  | ctrlJoin (there : s.thread = .ctrlJoin) (runs : s.ctrl.thread ≠ .ended)
  | stream (there : s.thread = .streaming) (runs : ∀ err, s.stream.runThread ≠ .returned err)
  | unknown (there : s.thread = .streaming) (returned : s.stream.runThread = .returned .disconnected)
      (untold : s.stream.remoteDisconnectReason = none)

section Blocked
variable {cfg : SessionConfig} {s : Session} {h : SessionHistory} {o : SessionOutcome} {r : Result}

theorem moves_of_step {op : SessionOp} (done : step cfg s op = .ok r) (moved : r.1.thread ≠ s.thread) :
    s.moves cfg op = true := by
  simp [moves, done, moved]

theorem sendRequest_moves (attempt : Nat) :
    ∃ r, s.sendRequest cfg o attempt = .ok r ∧ r.1.thread ≠ .send attempt := by
  unfold sendRequest
  dsimp only
  generalize (if cfg.holepunchSession then { s with hostname := o.holepunchAddr } else s) = s'
  generalize (if cfg.holepunchSession then o.holepunchPort else sessionPort) = port
  obtain ⟨written, request⟩ := sessionRequest_ok s'.target s'.hostname port s'.registKey
  rw [request, ok_bind]
  cases written with
  | error err => exact ⟨_, rfl, by simp [requestFailed, goto]⟩
  | ok text =>
      dsimp only
      split
      · exact ⟨_, rfl, by simp [requestFailed, goto]⟩
      · exact ⟨_, rfl, by simp [goto]⟩

/-- Where it has the mutex, the thread moves unless it waits for another one. -/
theorem runLocked_moves (fits : s.Consistent h) (free : ¬ s.Blocked) (elsewhere : ∀ wait, s.thread ≠ .waiting wait)
    (locks : s.thread ≠ .fallback ∧ s.thread ≠ .ctrlStop ∧ s.thread ≠ .ctrlJoin ∧ s.thread ≠ .quitting) :
    ∃ r, s.runLocked cfg .failing = .ok r ∧ r.1.thread ≠ s.thread := by
  unfold runLocked
  cases there : s.thread with
  | start => exact ⟨_, rfl, by simp [go, goto]⟩
  | begun =>
      refine ⟨_, rfl, ?_⟩
      unfold begin checkStop
      repeat' split
      all_goals simp [go, goto]
  | registJoin =>
      by_cases ended : s.registThread = .ended
      · exact ⟨_, rfl, by simp [ended, go, goto]⟩
      · exact absurd (.regist there ended) free
  | registered =>
      refine ⟨_, rfl, ?_⟩
      unfold checkStop
      split <;> simp [go, goto]
  | request attempt =>
      refine ⟨_, rfl, ?_⟩
      unfold beginRequest
      repeat' split
      all_goals simp [go, goto]
  | connectNext attempt addrinfos =>
      refine ⟨_, rfl, ?_⟩
      cases addrinfos with
      | nil => simp [connectNext, goto]
      | cons ai rest => simp [connectNext, SessionOutcome.failing, go, goto]
  | connecting attempt rest => exact ⟨_, rfl, by simp [connected, SessionOutcome.failing, goto]⟩
  | send attempt => exact sendRequest_moves attempt
  | receiving attempt => exact ⟨_, by simp [received, SessionOutcome.failing]; rfl, by simp [requestFailed, goto]⟩
  | requestDone attempt err =>
      refine ⟨_, rfl, ?_⟩
      unfold requestDone
      repeat' split
      all_goals simp [go, goto]
  | check wait =>
      refine ⟨_, rfl, ?_⟩
      split <;> simp [go, goto]
  | waiting wait => exact absurd there (elsewhere wait)
  | done wait =>
      cases wait with
      | regist => exact ⟨_, rfl, by simp [go, goto]⟩
      | settle => exact ⟨_, rfl, by simp [startCtrl, SessionOutcome.failing, go, goto]⟩
      | ctrlStart =>
          refine ⟨_, rfl, ?_⟩
          unfold checkStop
          repeat' split
          all_goals simp [go, goto]
      | pinReply | holepunch =>
          refine ⟨_, rfl, ?_⟩
          unfold checkStop
          split <;> simp [go, goto]
      | pin =>
          simp only [waited]
          split
          · exact ⟨_, rfl, by simp [goto]⟩
          · split
            · exact ⟨_, rfl, by simp [go, goto]⟩
            · have ready := fits.ready there
              have entered : s.loginPinEntered = true := by simp_all [condition]
              rw [← fits.entered, entered]
              exact ⟨_, rfl, by simp [go, goto]⟩
      | switch =>
          simp only [waited]
          split
          · exact ⟨_, rfl, by simp [go, goto]⟩
          · refine ⟨_, rfl, ?_⟩
            unfold checkStop
            split <;> simp [go, goto]
  | pinLoop =>
      refine ⟨_, rfl, ?_⟩
      unfold pinLoop
      split <;> simp [go, goto]
  | forwarding =>
      cases holds : s.ctrl.thread.holds with
      | true => exact absurd (.ctrl (.inl there) holds) free
      | false =>
          obtain ⟨pin, has⟩ := Option.isSome_iff_exists.mp (fits.forwards there)
          simp only [Bool.false_eq_true, if_false, forward, has, deref_some, ok_bind]
          exact ⟨_, rfl, by simp [goto]⟩
  | punchHole =>
      refine ⟨_, rfl, ?_⟩
      unfold punchHole
      split <;> simp [go, goto]
  | punched => exact ⟨_, rfl, by simp [punched, SessionOutcome.failing, go, goto]⟩
  | sessionId =>
      refine ⟨_, rfl, ?_⟩
      split <;> simp [go, goto]
  | fallback => exact absurd there locks.1
  | fallbackSet => exact ⟨_, rfl, by simp [go, goto]⟩
  | fallbackDone err =>
      refine ⟨_, rfl, ?_⟩
      split <;> simp [go, goto]
  | ctrlFailed => exact ⟨_, rfl, by simp [ctrlHasFailed, goto]⟩
  | senkusha => exact ⟨_, rfl, by simp [senkusha, SessionOutcome.failing, go, goto]⟩
  | switch => exact ⟨_, rfl, by simp [SessionOutcome.failing, go, goto]⟩
  | startStream => exact ⟨_, rfl, by simp [SessionOutcome.failing, go, goto]⟩
  | streaming =>
      cases run : s.stream.runThread with
      | returned err =>
          simp only [streamDone]
          split
          case isTrue disconnected =>
            subst disconnected
            cases told : s.stream.remoteDisconnectReason with
            | none => exact absurd (.unknown there run told) free
            | some reason => exact ⟨_, rfl, by simp [goto]⟩
          case isFalse =>
            split
            · exact ⟨_, rfl, by simp [goto]⟩
            · exact ⟨_, rfl, by simp [goto]⟩
      | _ => exact absurd (.stream there (by simp [run])) free
  | ctrlStop => exact absurd there locks.2.1
  | ctrlJoin => exact absurd there locks.2.2.1
  | quitting => exact absurd there locks.2.2.2
  | ended => exact absurd (.ended there) free

/-- Steps of the thread that does not move change nothing. -/
theorem idle_of_blocked {op : SessionOp} (blocked : s.Blocked) (done : step cfg s op = .ok r)
    (own : (∃ o, op = .run o) ∨ ∃ timeout, op = .wake timeout) : r = (s, []) := by
  rcases own with ⟨o, rfl⟩ | ⟨timeout, rfl⟩
  · simp only [step, stepRun] at done
    cases blocked with
    | ended there =>
        simp only [there, runLocked] at done
        split at done <;> cases done <;> rfl
    | stopCall call wants =>
        split at done
        case h_1 there => exact absurd there wants.1
        case h_2 there => exact absurd there wants.2.1
        case h_3 there => exact absurd there wants.2.2.1
        case h_4 there => exact absurd there wants.2.2.2
        case h_5 =>
          rw [if_neg call] at done
          cases done
          rfl
    | regist there runs =>
        simp only [there, runLocked, if_neg runs] at done
        split at done <;> cases done <;> rfl
    | ctrl there holds =>
        rcases there with there | there
        · simp only [there, runLocked, if_pos holds] at done
          split at done <;> cases done <;> rfl
        · simp only [there, if_pos holds] at done
          cases done
          rfl
    | ctrlJoin there runs =>
        simp only [there, if_neg runs] at done
        cases done
        rfl
    | stream there runs =>
        simp only [there, runLocked] at done
        split at done <;> cases done <;> rfl
    | unknown there returned untold =>
        simp only [there, runLocked, returned, streamDone, untold] at done
        split at done
        · cases done
        · cases done
          rfl
  · cases done
    unfold stepWake
    cases blocked with
    | stopCall call wants =>
        split
        · rw [if_pos call]
        · rfl
    | ctrl there holds => rcases there with there | there <;> rw [there]
    | ended there | regist there | ctrlJoin there | stream there | unknown there => rw [there]

theorem stays_of_blocked {op : SessionOp} (blocked : s.Blocked) (done : step cfg s op = .ok r) :
    r.1.thread = s.thread := by
  by_cases own : (∃ o, op = .run o) ∨ ∃ timeout, op = .wake timeout
  · rw [idle_of_blocked blocked done own]
  · exact (other_stays ⟨fun o now => own (.inl ⟨o, now⟩), fun timeout now => own (.inr ⟨timeout, now⟩)⟩ done).2

theorem blocked_iff (cfg : SessionConfig) (fits : s.Consistent h) : (∀ op, s.moves cfg op = false) ↔ s.Blocked := by
  constructor
  · intro rests
    by_contra free
    have moved {op : SessionOp} {r : Result} (done : step cfg s op = .ok r) (away : r.1.thread ≠ s.thread) : False :=
      absurd ((rests op).symm.trans (moves_of_step done away)) Bool.false_ne_true
    cases there : s.thread with
    | waiting wait =>
        have call : s.stopCall = .none := by
          by_contra call
          exact free (.stopCall call (by simp [there]))
        refine @moved (.wake false) (s.go (.check wait)) ?_ (by simp [go, goto, there])
        simp [step, stepWake, there, call, pure, Except.pure]
    | fallback =>
        refine @moved (.run .failing) (s.fallback .failing) ?_
          (by simp [fallback, SessionOutcome.failing, go, goto, there])
        simp [step, stepRun, there, pure, Except.pure]
    | ctrlStop =>
        have holds : s.ctrl.thread.holds = false := by
          cases holds : s.ctrl.thread.holds with
          | true => exact absurd (.ctrl (.inr there) holds) free
          | false => rfl
        have done : step cfg s (.run .failing) =
            .ok ({ s with ctrl := { s.ctrl with shouldStop := true, notifPipe := true } }.go .ctrlJoin) := by
          simp [step, stepRun, there, holds, pure, Except.pure]
        exact moved done (by simp [go, goto, there])
    | ctrlJoin =>
        have ended : s.ctrl.thread = .ended := by
          by_contra runs
          exact free (.ctrlJoin there runs)
        refine @moved (.run .failing) (s.go .quitting) ?_ (by simp [go, goto, there])
        simp [step, stepRun, there, ended, pure, Except.pure]
    | quitting =>
        refine @moved (.run .failing) (s.goto .ended, [.event (.quit s.quitReason s.quitReasonStr)]) ?_
          (by simp [goto, there])
        simp [step, stepRun, there, pure, Except.pure]
    | _ =>
        have call : s.stopCall = .none := by
          by_contra call
          exact free (.stopCall call (by simp [there]))
        obtain ⟨r, done, away⟩ := @runLocked_moves cfg s h fits free (by simp [there]) (by simp [there])
        refine @moved (.run .failing) r ?_ away
        simp [step, stepRun, there, call, done]
  · intro blocked op
    unfold moves
    split
    case h_1 r done => simp [stays_of_blocked blocked done]
    case h_2 => rfl

/-! ## Threads that wait for each other -/

/-- The thread waits for another one that waits for `state_mutex`, or for a call that waits for a mutex which
`chiaki_stream_connection_run` has not unlocked. -/
inductive Deadlocked (s : Session) : Prop
  | regist (there : s.thread = .registJoin) (runs : s.registThread ≠ .ended)
  | ctrl (there : s.thread = .forwarding) (shares : ∃ notice next, s.ctrl.thread = .sharing notice next)
  | stopCall (call : s.stopCall = .locked) (held : s.stream.stateMutexHeld = true)
      (returned : ∃ err, s.stream.runThread = .returned err)
      (there : s.thread = .streaming ∨
        (s.thread = .ctrlStop ∨ s.thread = .ctrlJoin) ∧ ∃ notice next, s.ctrl.thread = .sharing notice next)

theorem Deadlocked.blocked (dead : s.Deadlocked) : s.Blocked := by
  cases dead with
  | regist there runs => exact .regist there runs
  | ctrl there shares =>
      obtain ⟨notice, next, shares⟩ := shares
      exact .ctrl (.inl there) (by rw [shares]; rfl)
  | stopCall call held returned there =>
      rcases there with there | ⟨there | there, notice, next, shares⟩
      · exact .stopCall (by simp [call]) (by simp [there])
      · exact .ctrl (.inr there) (by rw [shares]; rfl)
      · exact .ctrlJoin there (by simp [shares])

theorem Deadlocked.taken (dead : s.Deadlocked) : s.mutexFree = false := by
  cases dead with
  | regist there => simp [mutexFree, there, SessionThread.holds]
  | ctrl there => simp [mutexFree, there, SessionThread.holds]
  | stopCall call => simp [mutexFree, call]

end Blocked

/-! ## Runs -/

section Runs
variable {cfg : SessionConfig} {registKey nonce : Bytes} {controllerState : ControllerState} {ops ops' : List SessionOp}
  {s t : Session} {outs outs' : List (List SessionOut)}

/-- Once the session is to stop, its thread takes only so many further steps, whatever the other threads do in
between, and it can take the next one unless it waits for another thread. -/
theorem quits_soon (done : run (step cfg) (init cfg registKey nonce controllerState) ops = .ok (s, outs))
    (stop : s.shouldStop = true) (later : run (step cfg) s ops' = .ok (t, outs')) :
    t.thread.stepsLeft cfg.hostAddrinfos.length + counted (step cfg) (moves cfg) s ops' ≤
        s.thread.stepsLeft cfg.hostAddrinfos.length ∧
      ((∀ op, t.moves cfg op = false) ↔ t.Blocked) := by
  constructor
  · exact counted_le_rank (fun s => s.shouldStop = true) (fun s => s.thread.stepsLeft cfg.hostAddrinfos.length)
      (fun s op s' out stop stepped => step_descends stop stepped) stop later
  · have kept := (along_true s ops').follows Consistent
      (fun _ _ _ _ _ fits _ stepped => step_keeps fits stepped) (run_keeps done).2 later
    exact blocked_iff cfg kept.2

theorem quits_soon_connecting : ∃ s outs t outs',
    run (step sampleConfig) (init sampleConfig [] [] .idle) (sampleStopped.take 9) = .ok (s, outs) ∧
    s.shouldStop = true ∧ run (step sampleConfig) s (sampleStopped.drop 9) = .ok (t, outs') ∧ t.thread = .ended ∧
    counted (step sampleConfig) (moves sampleConfig) s (sampleStopped.drop 9) ≤ 30 ∧ t.Blocked :=
  ⟨_, _, _, _, rfl, rfl, rfl, rfl,
    (@quits_soon sampleConfig [] [] .idle (sampleStopped.take 9) (sampleStopped.drop 9) _ _ _ _ rfl rfl rfl).1,
    .ended rfl⟩

end Runs

end Session
end Chiaki
