import Chiaki.StreamConnection.Protocol

/-!
# How a stream connection ends

What the result of `chiaki_stream_connection_run` says about the run, and what is left of the connection then.
-/

namespace Chiaki
open Machine

namespace StreamHistory
variable {lib : StreamConnectionLib} {h : StreamHistory} {log : List StreamConnectionOut}

theorem next_big (h : StreamHistory) (out : StreamConnectionOut) :
    (h.next out).big = true ↔ h.big = true ∨ ∃ err, out = .sent .big err := by
  cases out with
  | sent what err => cases what <;> simp [next]
  | _ => simp [next]

theorem next_disconnected (h : StreamHistory) (out : StreamConnectionOut) :
    (h.next out).disconnected = true ↔ h.disconnected = true ∨ ∃ err, out = .sent .disconnect err := by
  cases out with
  | sent what err => cases what <;> simp [next]
  | _ => simp [next]

theorem next_connected (h : StreamHistory) (out : StreamConnectionOut) :
    (h.next out).connected = true ↔ h.connected = true ∨ out = .connected := by
  cases out with
  | sent what err => cases what <;> simp [next]
  | _ => simp [next]

/-- A mark that only certain entries leave is there if one of them is in the log. -/
theorem foldl_mark (mark : StreamHistory → Bool) (leaves : StreamConnectionOut → Prop)
    (step : ∀ h out, mark (h.next out) = true ↔ mark h = true ∨ leaves out) (h : StreamHistory)
    (log : List StreamConnectionOut) : mark (log.foldl next h) = true ↔ mark h = true ∨ ∃ out ∈ log, leaves out := by
  induction log generalizing h with
  | nil => simp
  | cons out log ih => simp [ih, step, or_assoc]

theorem sent_big (log : List StreamConnectionOut) :
    (log.foldl next {}).big = true ↔ ∃ err, .sent .big err ∈ log := by
  rw [foldl_mark _ _ next_big]
  simp

theorem sent_disconnect (log : List StreamConnectionOut) :
    (log.foldl next {}).disconnected = true ↔ ∃ err, .sent .disconnect err ∈ log := by
  rw [foldl_mark _ _ next_disconnected]
  simp

theorem reported_connected (log : List StreamConnectionOut) :
    (log.foldl next {}).connected = true ↔ .connected ∈ log := by
  rw [foldl_mark _ _ next_connected]
  simp

/-- Nothing is permitted once the function has returned. -/
theorem permitted_returned {out : StreamConnectionOut} (permitted : h.Permitted lib out) : h.returned = none := by
  cases out with
  | sent what err =>
      cases what with
      | big => exact permitted.2.2
      | streaminfoAck => exact permitted.2.2
      | controllerConnection => exact permitted.1.2.2
      | microphone => exact permitted.1.2.2
      | heartbeat => exact permitted.2.2
      | disconnect => exact permitted.2.2
  | setCrypt gkcryptLocal gkcryptRemote => exact permitted.2.2.1
  | audioStreamInfo header => exact permitted.2.2
  | videoStreamInfo profiles => exact permitted.2.2
  | avPacket receiver => exact permitted.2
  | connected => exact permitted.2.2.2.2.2
  | rumble unknown left right => exact permitted
  | triggerEffects typeLeft typeRight left right => exact permitted
  | returned err => exact permitted.1

theorem next_returned (h : StreamHistory) (out : StreamConnectionOut) {err : ErrorCode} (open_ : h.returned = none)
    (done : (h.next out).returned = some err) : out = .returned err := by
  cases out with
  | sent what result => cases what <;> simp [next, open_] at done
  | returned result =>
      cases done
      rfl
  | _ => simp [next, open_] at done

theorem returned_last {err : ErrorCode} (order : Follows next (Permitted lib) h log) (open_ : h.returned = none)
    (done : (log.foldl next h).returned = some err) : ∃ before, log = before ++ [.returned err] := by
  induction log using List.reverseRecOn with
  | nil => exact absurd (open_.symm.trans done) (by simp)
  | append_singleton before out ih =>
      obtain ⟨-, last, -⟩ := follows_append.mp order
      rw [List.foldl_append] at done
      have same := next_returned _ out (permitted_returned last) done
      exact ⟨before, by rw [same]⟩

end StreamHistory

namespace StreamConnection
open StreamHistory

/-- What a result says, given all that was sent and reported. -/
structure Concludes (s : StreamConnection) (log : List StreamConnectionOut) (err : ErrorCode) : Prop where
  last : ∃ before, log = before ++ [.returned err]
  receivers : s.audioReceiver = none ∧ s.hapticsReceiver = none ∧ s.videoReceiver = none
  joined : s.takionThread = .none ∨ s.takionThread = .ended
  success : err = .success →
    s.shouldStop = true ∧ s.congestionControl = true ∧ ∀ result, .sent .big result ∉ log
  canceled : err = .canceled → s.shouldStop = true ∧ ∃ result, .sent .disconnect result ∈ log
  disconnected : err = .disconnected → s.remoteDisconnected = true ∧ ∃ result, .sent .disconnect result ∈ log
  established : .connected ∈ log → err = .canceled ∨ err = .disconnected
  congestion : s.congestionControl = true → s.shouldStop = true ∧ ∀ result, .sent .big result ∉ log

variable {lib : StreamConnectionLib} {controllerState : ControllerState} {ops : List StreamConnectionOp}
  {s : StreamConnection} {outs : List (List StreamConnectionOut)} {err : ErrorCode}

theorem unsent {log : List StreamConnectionOut} (early : (log.foldl next {}).big = false) (result : ErrorCode) :
    .sent .big result ∉ log := by
  intro sent
  exact Bool.false_ne_true (early.symm.trans ((sent_big log).mpr ⟨result, sent⟩))

theorem EndsWith.concludes {log : List StreamConnectionOut} (ends : s.EndsWith (log.foldl next {}) err)
    (early : (log.foldl next {}).big = false → (log.foldl next {}).connected = false)
    (last : ∃ before, log = before ++ [.returned err])
    (receivers : s.audioReceiver = none ∧ s.hapticsReceiver = none ∧ s.videoReceiver = none)
    (joined : s.takionThread = .none ∨ s.takionThread = .ended) : s.Concludes log err := by
  have unconnected (never : (log.foldl next {}).big = false) : .connected ∉ log := fun reported =>
    Bool.false_ne_true ((early never).symm.trans ((reported_connected log).mpr reported))
  cases ends with
  | stopped never congestion stop result =>
      exact { last, receivers, joined
              success := fun _ => ⟨stop, congestion, unsent never⟩
              canceled := fun now => by rcases result with rfl | rfl <;> cases now
              disconnected := fun now => by rcases result with rfl | rfl <;> cases now
              established := fun reported => absurd reported (unconnected never)
              congestion := fun _ => ⟨stop, unsent never⟩ }
  | failed never congestion result own =>
      exact { last, receivers, joined
              success := fun now => absurd now result
              canceled := fun now => absurd now own.1
              disconnected := fun now => absurd now own.2
              established := fun reported => absurd reported (unconnected never)
              congestion := fun now => absurd (congestion.symm.trans now) Bool.false_ne_true }
  | disconnected told congestion result canceled remote established =>
      have sent := (sent_disconnect log).mp told
      exact { last, receivers, joined
              success := fun now => absurd now result
              canceled := fun now => ⟨canceled now, sent⟩
              disconnected := fun now => ⟨remote now, sent⟩
              established := fun reported => established ((reported_connected log).mpr reported)
              congestion := fun now => absurd (congestion.symm.trans now) Bool.false_ne_true }

/-- The report that the connection is there comes after the big message. -/
theorem big_of_connected {log : List StreamConnectionOut} {h : StreamHistory}
    (order : Follows next (Permitted lib) h log) (first : h.connected = true → h.big = true)
    (connected : (log.foldl next h).connected = true) : (log.foldl next h).big = true := by
  induction log generalizing h with
  | nil => exact first connected
  | cons out log ih =>
      refine ih order.2 (fun now => ?_) connected
      rw [next_big]
      rcases (next_connected h out).mp now with before | rfl
      · exact .inl (first before)
      · exact .inl order.1.1

/-- However the threads interleave, the result says how the connection ended. -/
theorem result_of_run (done : run (step lib) (init controllerState) ops = .ok (s, outs))
    (returned : s.runThread = .returned err) : s.Concludes outs.flatten err := by
  obtain ⟨order, fits⟩ := run_keeps done
  have place := fits.place
  rw [returned] at place
  obtain ⟨result, joined, ends, receivers⟩ := place
  refine ends.concludes (fun early => ?_) (returned_last order rfl result) receivers joined
  cases connected : (outs.flatten.foldl next {}).connected with
  | false => rfl
  | true =>
      have big := big_of_connected order (fun now => by cases now) connected
      exact absurd (early.symm.trans big) Bool.false_ne_true

/-- A connection that is stopped once it is there. -/
def sampleStop : List StreamConnectionOp :=
  sampleConnect ++ [.run sampleCalls, .stop, .stopSignal, .wake false sampleCalls, .takionDisconnect, .run sampleCalls]

theorem result_of_run_stopped : ∃ outs s, run (step sampleLib) (init .idle) sampleStop = .ok (s, outs) ∧
    s.Concludes outs.flatten .canceled :=
  ⟨_, _, rfl, @result_of_run sampleLib .idle sampleStop _ _ .canceled rfl rfl⟩

end StreamConnection
end Chiaki
