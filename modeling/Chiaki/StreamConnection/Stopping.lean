import Chiaki.Lib.Runs
import Chiaki.StreamConnection.Protocol

/-!
# Stopping a stream connection

A wake-up is never lost, and once the connection is to stop, the running thread waits for nothing but the thread of
Takion.
-/

namespace Chiaki
open Machine

namespace StreamConnection
open StreamHistory

/-- The running thread can take a step of its own. -/
def canRun (s : StreamConnection) : StreamConnectionOp → Bool
  | .run _ =>
      match s.runThread with
      | .start | .connected | .notified => true
      | .closing _ => s.takionThread = .ended
      | .waiting _ _ | .returned _ => false
  | .wake _ _ =>
      match s.runThread with
      | .waiting _ _ => true
      | _ => false
  | _ => false

/-- The steps left for the running thread when it is to stop. -/
def stepsLeft (s : StreamConnection) : Nat :=
  match s.runThread with
  | .start | .waiting _ _ | .notified => 2
  | .connected => 3
  | .closing _ => 1
  | .returned _ => 0

variable {lib : StreamConnectionLib} {s t : StreamConnection} {o : RunOutcome} {err : ErrorCode}

/-! ## The running thread -/

/-- The function goes on to close the connection. -/
def Closes (s : StreamConnection) (r : Result) : Prop :=
  r.1.shouldStop = s.shouldStop ∧ ∃ err, r.1.runThread = .closing err

theorem condCheck_of_stop (stop : s.shouldStop = true) : s.condCheck = true := by
  simp [condCheck, stop]

theorem disconnect_closes : s.Closes (s.disconnect o err) := ⟨rfl, _, rfl⟩

theorem waitHeartbeat_closes (stop : s.shouldStop = true) : s.Closes (s.waitHeartbeat o) := by
  unfold waitHeartbeat
  rw [if_pos (condCheck_of_stop stop)]
  exact ⟨rfl, _, rfl⟩

theorem takionConnectDone_closes (stop : s.shouldStop = true) : s.Closes (s.takionConnectDone o err) := by
  unfold takionConnectDone
  rw [if_pos stop]
  exact ⟨rfl, _, rfl⟩

theorem waitTakionConnect_closes (stop : s.shouldStop = true) : s.Closes (s.waitTakionConnect o) := by
  unfold waitTakionConnect
  rw [if_pos (condCheck_of_stop stop)]
  exact takionConnectDone_closes stop

theorem bangDone_closes (stop : s.shouldStop = true) : s.Closes (s.bangDone o err) := by
  unfold bangDone
  rw [if_pos stop]
  exact disconnect_closes

theorem streaminfoDone_closes (stop : s.shouldStop = true) : s.Closes (s.streaminfoDone o err) := by
  unfold streaminfoDone
  rw [if_pos stop]
  exact disconnect_closes

theorem resume_closes (wait : StreamWait) (stop : s.shouldStop = true) : s.Closes (s.resume o err wait) := by
  cases wait with
  | takionConnect => exact takionConnectDone_closes stop
  | bang => exact bangDone_closes stop
  | streaminfo => exact streaminfoDone_closes stop
  | heartbeat =>
      change s.Closes (if err = .timeout then s.sendHeartbeat o else s.heartbeatsDone o)
      split
      · exact waitHeartbeat_closes stop
      · exact ⟨rfl, _, rfl⟩

theorem begin_ends (stop : s.shouldStop = true) :
    (s.begin o).1.shouldStop = true ∧ (s.begin o).1.stepsLeft ≤ 1 := by
  have closes {r : Result} {u : StreamConnection} (stopped : u.shouldStop = true) (closing : u.Closes r) :
      r.1.shouldStop = true ∧ r.1.stepsLeft ≤ 1 := by
    obtain ⟨same, err, there⟩ := closing
    exact ⟨same.trans stopped, by simp [stepsLeft, there]⟩
  have returns (u : StreamConnection) (result : ErrorCode) (stopped : u.shouldStop = true) :
      (u.ret result).1.shouldStop = true ∧ (u.ret result).1.stepsLeft ≤ 1 := ⟨stopped, Nat.zero_le _⟩
  unfold begin
  split
  · exact returns _ _ stop
  · split
    · exact returns _ _ stop
    · dsimp only
      split
      · exact returns _ _ stop
      · split
        · exact closes stop ⟨rfl, _, rfl⟩
        · exact closes stop (waitTakionConnect_closes stop)

/-! ## One step -/

theorem stepRun_spends (stop : s.shouldStop = true) (can : s.canRun (.run o) = true) :
    (s.stepRun o).1.shouldStop = true ∧ (s.stepRun o).1.stepsLeft + 1 ≤ s.stepsLeft := by
  unfold stepRun
  cases there : s.runThread with
  | start =>
      obtain ⟨stopped, few⟩ := @begin_ends s o stop
      have two : s.stepsLeft = 2 := by simp [stepsLeft, there]
      rw [two]
      exact ⟨stopped, Nat.succ_le_succ few⟩
  | waiting wait woken => simp [canRun, there] at can
  | connected => exact ⟨stop, by simp [stepsLeft, there]⟩
  | notified =>
      obtain ⟨same, err, closing⟩ := @waitHeartbeat_closes s o stop
      exact ⟨same.trans stop, by simp [stepsLeft, there, closing]⟩
  | closing err =>
      have ended : s.takionThread = .ended := by simpa [canRun, there] using can
      dsimp only
      rw [if_pos ended]
      exact ⟨stop, by simp [stepsLeft, there, ret]⟩
  | returned err => simp [canRun, there] at can

theorem stepWake_spends {timeout : Bool} (stop : s.shouldStop = true) (can : s.canRun (.wake timeout o) = true) :
    (s.stepWake timeout o).1.shouldStop = true ∧ (s.stepWake timeout o).1.stepsLeft + 1 ≤ s.stepsLeft := by
  unfold stepWake
  cases there : s.runThread with
  | waiting wait woken =>
      have ends (err : ErrorCode) :
          (s.resume o err wait).1.shouldStop = true ∧ (s.resume o err wait).1.stepsLeft + 1 ≤ s.stepsLeft := by
        obtain ⟨same, result, closing⟩ := @resume_closes s o err wait stop
        exact ⟨same.trans stop, by simp [stepsLeft, there, closing]⟩
      dsimp only
      split
      · exact ends _
      · rw [if_pos (condCheck_of_stop stop)]
        exact ends _
  | _ => simp [canRun, there] at can

/-- A step of another thread at most signals the condition. -/
def Calm (s : StreamConnection) (r : Result) : Prop :=
  (s.shouldStop = true → r.1.shouldStop = true) ∧
    (r.1.runThread = s.runThread ∨ r.1.runThread = s.runThread.signalled)

theorem other_calm {op : StreamConnectionOp} {r : Result} (step : Other lib s op r) : s.Calm r := by
  cases step with
  | takion thread isConnected begun =>
      unfold takionConnection
      split
      · exact ⟨id, .inr rfl⟩
      · exact ⟨id, .inl rfl⟩
  | answered o header known told receiving state video =>
      split <;> exact ⟨id, .inr rfl⟩
  | idle | rumble | triggerEffects | av | setControllerState => exact ⟨id, .inl rfl⟩
  | disconnected | failed | unkeyed | keyed | stopSignal => exact ⟨id, .inr rfl⟩
  | stop => exact ⟨fun _ => rfl, .inl rfl⟩

theorem stepsLeft_signalled (s : StreamConnection) {point : RunThread} (same : point = s.runThread.signalled) :
    { s with runThread := point }.stepsLeft = s.stepsLeft := by
  subst same
  cases there : s.runThread <;> simp [stepsLeft, RunThread.signalled, there]

theorem Calm.stepsLeft {r : Result} (calm : s.Calm r) : r.1.stepsLeft = s.stepsLeft := by
  rcases calm.2 with same | woken
  · simp only [StreamConnection.stepsLeft, same]
  · rw [← stepsLeft_signalled s woken]
    rfl

/-- Once the connection is to stop, each step of the running thread brings it nearer to its end, and no other step
takes it away from it. -/
theorem step_spends {op : StreamConnectionOp} {r : Result} (stop : s.shouldStop = true)
    (done : step lib s op = .ok r) :
    r.1.shouldStop = true ∧ r.1.stepsLeft + (if s.canRun op then 1 else 0) ≤ s.stepsLeft := by
  rcases step_cases done with ⟨o, rfl, rfl⟩ | ⟨timeout, o, rfl, rfl⟩ | ⟨notRun, notWake, other⟩
  · cases can : s.canRun (.run o) with
    | true => exact stepRun_spends stop can
    | false =>
        have same : s.stepRun o = (s, []) := by
          unfold stepRun
          cases there : s.runThread <;> simp_all [canRun]
        rw [same]
        exact ⟨stop, Nat.le_refl _⟩
  · cases can : s.canRun (.wake timeout o) with
    | true => exact stepWake_spends stop can
    | false =>
        have same : s.stepWake timeout o = (s, []) := by
          unfold stepWake
          cases there : s.runThread <;> simp_all [canRun]
        rw [same]
        exact ⟨stop, Nat.le_refl _⟩
  · have calm := other_calm other
    have cannot : s.canRun op = false := by
      cases op with
      | run o => exact absurd rfl (notRun o)
      | wake timeout o => exact absurd rfl (notWake timeout o)
      | _ => rfl
    rw [cannot, calm.stepsLeft]
    exact ⟨calm.1 stop, Nat.le_refl _⟩

theorem waitHeartbeat_shouldStop : (s.waitHeartbeat o).1.shouldStop = s.shouldStop := by
  unfold waitHeartbeat
  split <;> rfl

theorem streaminfoDone_shouldStop : (s.streaminfoDone o err).1.shouldStop = s.shouldStop := by
  unfold streaminfoDone
  repeat' split
  all_goals rfl

theorem bangDone_shouldStop : (s.bangDone o err).1.shouldStop = s.shouldStop := by
  unfold bangDone waitStreaminfo
  repeat' split
  all_goals first | rfl | exact streaminfoDone_shouldStop

theorem takionConnectDone_shouldStop : (s.takionConnectDone o err).1.shouldStop = s.shouldStop := by
  unfold takionConnectDone sendBig waitBang
  dsimp only
  repeat' split
  all_goals first | rfl | exact bangDone_shouldStop

theorem begin_shouldStop : (s.begin o).1.shouldStop = s.shouldStop := by
  unfold begin waitTakionConnect
  dsimp only
  repeat' split
  all_goals first | rfl | exact takionConnectDone_shouldStop

theorem stepRun_shouldStop : (s.stepRun o).1.shouldStop = s.shouldStop := by
  unfold stepRun
  split
  case h_1 => exact begin_shouldStop
  case h_2 => rfl
  case h_3 => exact waitHeartbeat_shouldStop
  case h_4 => split <;> rfl
  all_goals rfl

theorem resume_shouldStop (wait : StreamWait) : (s.resume o err wait).1.shouldStop = s.shouldStop := by
  cases wait with
  | takionConnect => exact takionConnectDone_shouldStop
  | bang => exact bangDone_shouldStop
  | streaminfo => exact streaminfoDone_shouldStop
  | heartbeat =>
      change (if err = .timeout then s.sendHeartbeat o else s.heartbeatsDone o).1.shouldStop = s.shouldStop
      split
      · exact waitHeartbeat_shouldStop
      · rfl

/-- Only `chiaki_stream_connection_stop` stops the connection. -/
theorem shouldStop_of_step {op : StreamConnectionOp} {r : Result} (done : step lib s op = .ok r) (other : op ≠ .stop) :
    r.1.shouldStop = s.shouldStop := by
  rcases step_cases done with ⟨o, rfl, rfl⟩ | ⟨timeout, o, rfl, rfl⟩ | ⟨-, -, step⟩
  · exact stepRun_shouldStop
  · unfold stepWake
    repeat' split
    all_goals first | rfl | exact resume_shouldStop _
  · cases step with
    | stop told => exact absurd told other
    | takion thread isConnected begun =>
        unfold takionConnection
        split <;> rfl
    | answered o header known told receiving state video => split <;> rfl
    | _ => rfl
/-! ## Runs -/

/-- Where the running thread cannot take a step, the function has returned or the thread of Takion is still there. -/
theorem stuck_iff (s : StreamConnection) (timeout : Bool) (o : RunOutcome) :
    (s.canRun (.run o) = false ∧ s.canRun (.wake timeout o) = false) ↔
      (∃ err, s.runThread = .returned err) ∨ (∃ err, s.runThread = .closing err) ∧ s.takionThread ≠ .ended := by
  cases there : s.runThread <;> simp [canRun, there]

theorem stepsLeft_le (s : StreamConnection) : s.stepsLeft ≤ 3 := by
  unfold stepsLeft
  split <;> decide

theorem stepsLeft_eq_zero : s.stepsLeft = 0 ↔ ∃ err, s.runThread = .returned err := by
  cases there : s.runThread <;> simp [stepsLeft, there]

/-- Once `chiaki_stream_connection_stop` has set its flag, whatever comes in between: the running thread takes at most
three more steps, the function has returned with the last of them, and until then nothing stops it from taking the
next one but the thread of Takion, which it joins. -/
theorem stops_soon (stop : s.shouldStop = true) {ops : List StreamConnectionOp} {outs : List (List StreamConnectionOut)}
    (done : run (step lib) s ops = .ok (t, outs)) :
    counted (step lib) canRun s ops ≤ 3 ∧
      (counted (step lib) canRun s ops = 3 → ∃ err, t.runThread = .returned err) ∧
      (∀ timeout o, t.canRun (.run o) = false → t.canRun (.wake timeout o) = false →
        (∃ err, t.runThread = .returned err) ∨ (∃ err, t.runThread = .closing err) ∧ t.takionThread ≠ .ended) := by
  have spent : t.stepsLeft + counted (step lib) canRun s ops ≤ s.stepsLeft :=
    counted_le_rank (fun s => s.shouldStop = true) stepsLeft (fun _ _ _ _ stop stepped => step_spends stop stepped) stop
      done
  have few := stepsLeft_le s
  refine ⟨by omega, fun all => stepsLeft_eq_zero.mp (by omega), fun timeout o run wake => ?_⟩
  exact (stuck_iff t timeout o).mp ⟨run, wake⟩

theorem stops_soon_waiting : ∃ outs t, run (step sampleLib) { (init .idle) with shouldStop := true }
      [.run sampleCalls, .takionDisconnect, .run sampleCalls] = .ok (t, outs) ∧
    counted (step sampleLib) canRun { (init .idle) with shouldStop := true }
      [.run sampleCalls, .takionDisconnect, .run sampleCalls] ≤ 3 :=
  ⟨_, _, rfl, (@stops_soon sampleLib { (init .idle) with shouldStop := true } _ rfl _ _ rfl).1⟩

end StreamConnection
end Chiaki
