import Chiaki.StreamConnection.Run

/-!
# The order of a stream connection

What the client sends and reports, in the order in which it may. The invariant relates the state of the connection
to what the log says has happened.
-/

namespace Chiaki
open Machine

/-- What has happened according to the log. -/
structure StreamHistory where
  big : Bool := false
  crypt : Option (StreamKey × StreamKey) := none
  /-- The answers to the last streaminfo message that were sent so far. -/
  answers : Nat := 0
  /-- All answers to some streaminfo message were sent. -/
  answered : Bool := false
  connected : Bool := false
  disconnected : Bool := false
  returned : Option ErrorCode := none

namespace StreamHistory

def next (h : StreamHistory) : StreamConnectionOut → StreamHistory
  | .sent .big _ => { h with big := true }
  | .sent .streaminfoAck _ => { h with answers := 1 }
  | .sent .controllerConnection err => { h with answers := if h.answers = 1 ∧ err = .success then 2 else 0 }
  | .sent .microphone err =>
      { h with answers := 0, answered := h.answered || (h.answers = 2 ∧ err = .success : Bool) }
  | .sent .heartbeat _ => h
  | .sent .disconnect _ => { h with disconnected := true }
  | .setCrypt gkcryptLocal gkcryptRemote => { h with crypt := some (gkcryptLocal, gkcryptRemote) }
  | .connected => { h with connected := true }
  | .returned err => { h with returned := some err }
  | _ => h

/-- The connection is not being closed. -/
structure Running (h : StreamHistory) (big connected : Bool) : Prop where
  big : h.big = big
  connected : h.connected = connected
  disconnected : h.disconnected = false
  returned : h.returned = none

/-- The streaminfo is dealt with between the agreement on the keys and the report that the connection is there. -/
def Describing (h : StreamHistory) : Prop := h.crypt.isSome = true ∧ h.connected = false ∧ h.returned = none

/-- What may come next. -/
def Permitted (lib : StreamConnectionLib) (h : StreamHistory) : StreamConnectionOut → Prop
  | .sent .big _ => h.big = false ∧ h.disconnected = false ∧ h.returned = none
  | .setCrypt gkcryptLocal gkcryptRemote =>
      h.big = true ∧ h.crypt = none ∧ h.returned = none ∧
        ∃ secret, gkcryptLocal = ⟨2, lib.handshakeKey, secret⟩ ∧ gkcryptRemote = ⟨3, lib.handshakeKey, secret⟩
  | .audioStreamInfo _ | .videoStreamInfo _ | .sent .streaminfoAck _ => h.Describing
  | .sent .controllerConnection _ => h.Describing ∧ h.answers = 1
  | .sent .microphone _ => h.Describing ∧ h.answers = 2
  | .connected =>
      h.big = true ∧ h.crypt.isSome = true ∧ h.answered = true ∧ h.connected = false ∧ h.disconnected = false ∧
        h.returned = none
  | .sent .heartbeat _ => h.connected = true ∧ h.disconnected = false ∧ h.returned = none
  | .sent .disconnect _ => h.big = true ∧ h.disconnected = false ∧ h.returned = none
  | .avPacket _ => h.crypt.isSome = true ∧ h.returned = none
  | .rumble .. | .triggerEffects .. => h.returned = none
  | .returned _ => h.returned = none ∧ (h.connected = true → h.disconnected = true)

end StreamHistory

def StreamWait.state : StreamWait → StreamConnectionState
  | .takionConnect => .takionConnect
  | .bang => .expectBang
  | .streaminfo => .expectStreaminfo
  | .heartbeat => .idle

namespace StreamConnection
open StreamHistory

/-- How the function can end: because it was to stop before Takion was connected, because something failed before it
sent anything, or after it has told the console that it disconnects. -/
inductive EndsWith (s : StreamConnection) (h : StreamHistory) (err : ErrorCode) : Prop
  | stopped (early : h.big = false) (congestion : s.congestionControl = true) (stop : s.shouldStop = true)
      (result : err = .success ∨ err = .timeout)
  | failed (early : h.big = false) (congestion : s.congestionControl = false) (result : err ≠ .success)
      (own : err ≠ .canceled ∧ err ≠ .disconnected)
  | disconnected (told : h.disconnected = true) (congestion : s.congestionControl = false) (result : err ≠ .success)
      (canceled : err = .canceled → s.shouldStop = true)
      (remote : err = .disconnected → s.remoteDisconnected = true)
      (established : h.connected = true → err = .canceled ∨ err = .disconnected)

theorem EndsWith.frame {s s' : StreamConnection} {h h' : StreamHistory} {err : ErrorCode} (ends : s.EndsWith h err)
    (stop : s.shouldStop = true → s'.shouldStop = true) (congestion : s'.congestionControl = s.congestionControl)
    (remote : s.remoteDisconnected = true → s'.remoteDisconnected = true) (big : h'.big = h.big)
    (told : h'.disconnected = h.disconnected) (connected : h'.connected = h.connected) : s'.EndsWith h' err := by
  cases ends with
  | stopped early runs stopped result => exact .stopped (big.trans early) (congestion.trans runs) (stop stopped) result
  | failed early stopped result own => exact .failed (big.trans early) (congestion.trans stopped) result own
  | disconnected told' stopped result canceled remote' established =>
      refine .disconnected (told.trans told') (congestion.trans stopped) result ?_ ?_ fun now => ?_
      · exact fun now => stop (canceled now)
      · exact fun now => remote (remote' now)
      · exact established (connected.symm.trans now)

/-- What is known where the running thread is. -/
def At (s : StreamConnection) (h : StreamHistory) : RunThread → Prop
  | .start => h.Running false false ∧ s.takionThread = .none ∧ s.congestionControl = false
  | .waiting wait _ =>
      s.state = wait.state ∧ h.Running (wait ≠ .takionConnect) (wait = .heartbeat) ∧
        (wait = .takionConnect → s.congestionControl = true)
  | .connected => s.state = .idle ∧ h.Running true false ∧ h.answered = true ∧ s.takionCrypt.isSome = true
  | .notified => s.state = .idle ∧ h.Running true true
  | .closing err => h.returned = none ∧ (h.connected = true → h.disconnected = true) ∧ s.EndsWith h err
  | .returned err =>
      h.returned = some err ∧ (s.takionThread = .none ∨ s.takionThread = .ended) ∧ s.EndsWith h err ∧
        s.audioReceiver = none ∧ s.hapticsReceiver = none ∧ s.videoReceiver = none

/-- The state fits to the history, wherever the running thread is. -/
structure Coherent (s : StreamConnection) (h : StreamHistory) : Prop where
  crypt : h.crypt = s.takionCrypt
  keys : s.takionCrypt.isSome = true → s.ecdhSecret.isSome = true ∧ s.gkcryptRemote.isSome = true
  big : s.state = .expectBang → h.big = true
  keyed : s.state = .expectBang → s.stateFinished = true → s.takionCrypt.isSome = true
  described : s.state = .expectStreaminfo →
    s.takionCrypt.isSome = true ∧ h.connected = false ∧ (s.stateFinished = true → h.answered = true)
  idle : s.state = .idle → s.stateFinished = false
  alive : s.takionThread = .handshake ∨ s.takionThread = .receiving →
    h.returned = none ∧ s.audioReceiver.isSome = true ∧ s.hapticsReceiver.isSome = true ∧
      s.videoReceiver.isSome = true
  feedback : s.feedbackSenderActive = true → s.feedbackSender = some s.controllerState

/-- A thread that waits although its condition is true was woken or is about to be. -/
def Wakes (s : StreamConnection) : Prop :=
  ∀ wait woken, s.runThread = .waiting wait woken → s.condCheck = true → woken = true ∨ 0 < s.stopping

structure Consistent (s : StreamConnection) (h : StreamHistory) : Prop extends Coherent s h where
  place : s.At h s.runThread
  wakes : s.Wakes

/-! ## The running thread -/

section Run
variable (lib : StreamConnectionLib)

/-- What a step adds to the log is permitted, and the state fits to it. -/
def Keeps (h : StreamHistory) (r : Result) : Prop :=
  Follows next (Permitted lib) h r.2 ∧ Consistent r.1 (r.2.foldl next h)

variable {lib} {s : StreamConnection} {h : StreamHistory} {o : RunOutcome} {err : ErrorCode}

theorem keeps_cons {out : StreamConnectionOut} {r : Result} (permitted : h.Permitted lib out)
    (rest : Keeps lib (h.next out) r) : Keeps lib h (r.1, out :: r.2) :=
  ⟨⟨permitted, rest.1⟩, rest.2⟩

theorem keeps_wait (wait : StreamWait) (fits : s.Coherent h) (state : s.state = wait.state)
    (running : h.Running (wait ≠ .takionConnect) (wait = .heartbeat))
    (congestion : wait = .takionConnect → s.congestionControl = true) (unready : s.condCheck = false) :
    Keeps lib h ({ s with runThread := .waiting wait false }, []) := by
  refine ⟨trivial, { fits with place := ⟨state, running, congestion⟩, wakes := ?_ }⟩
  intro wait' woken _ ready
  exact absurd (unready.symm.trans ready) Bool.false_ne_true

theorem closeTakion_keeps (fits : s.Coherent h) (open_ : h.returned = none)
    (told : h.connected = true → h.disconnected = true) (ends : s.EndsWith h err) :
    Keeps lib h (s.closeTakion err) := by
  refine ⟨trivial, { fits with place := ⟨open_, told, ?_⟩, wakes := ?_ }⟩
  · exact ends.frame id rfl id rfl rfl rfl
  · intro wait woken there
    cases there

theorem disconnectResult_ne_success (ends : err ≠ .success ∨ s.shouldStop = true ∨ s.remoteDisconnected = true) :
    s.disconnectResult err ≠ .success := by
  unfold disconnectResult
  cases stop : s.shouldStop <;> cases remote : s.remoteDisconnected <;> simp_all

theorem disconnectResult_canceled (own : err ≠ .canceled) (result : s.disconnectResult err = .canceled) :
    s.shouldStop = true := by
  unfold disconnectResult at result
  cases stop : s.shouldStop with
  | true => rfl
  | false => cases remote : s.remoteDisconnected <;> simp_all

theorem disconnectResult_disconnected (own : err ≠ .disconnected) (result : s.disconnectResult err = .disconnected) :
    s.remoteDisconnected = true := by
  unfold disconnectResult at result
  cases remote : s.remoteDisconnected with
  | true => rfl
  | false => cases stop : s.shouldStop <;> simp_all

theorem disconnectResult_cases (cause : s.shouldStop = true ∨ s.remoteDisconnected = true) :
    s.disconnectResult err = .canceled ∨ s.disconnectResult err = .disconnected := by
  unfold disconnectResult
  cases stop : s.shouldStop with
  | true => exact .inl rfl
  | false =>
      rcases cause with stopped | remote
      · exact absurd (stop.symm.trans stopped) Bool.false_ne_true
      · rw [remote]
        exact .inr rfl

theorem disconnect_keeps {connected : Bool} (fits : s.Coherent h) (running : h.Running true connected)
    (own : err ≠ .canceled ∧ err ≠ .disconnected)
    (ends : err ≠ .success ∨ s.shouldStop = true ∨ s.remoteDisconnected = true)
    (established : connected = true → s.shouldStop = true ∨ s.remoteDisconnected = true) :
    Keeps lib h (s.disconnect o err) := by
  refine keeps_cons ⟨running.big, running.disconnected, running.returned⟩ ?_
  apply closeTakion_keeps
  · exact { fits with }
  · exact running.returned
  · exact fun _ => rfl
  · refine .disconnected rfl rfl (disconnectResult_ne_success ends) (disconnectResult_canceled own.1)
      (disconnectResult_disconnected own.2) fun now => ?_
    exact disconnectResult_cases (established (running.connected.symm.trans now))

theorem condCheck_cases (ready : s.condCheck = true) (unfinished : s.stateFinished = false) :
    s.shouldStop = true ∨ s.remoteDisconnected = true := by
  simpa [condCheck, unfinished] using ready

theorem heartbeatsDone_keeps (fits : s.Coherent h) (state : s.state = .idle) (running : h.Running true true)
    (ready : s.condCheck = true) : Keeps lib h (s.heartbeatsDone o) := by
  have cause := condCheck_cases ready (fits.idle state)
  have fits' : { s with feedbackSenderActive := false, feedbackSender := none }.Coherent h :=
    { fits with feedback := fun active => absurd active Bool.false_ne_true }
  exact disconnect_keeps fits' running (by simp) (.inr cause) fun _ => cause

theorem waitHeartbeat_keeps (fits : s.Coherent h) (state : s.state = .idle) (running : h.Running true true) :
    Keeps lib h (s.waitHeartbeat o) := by
  unfold waitHeartbeat
  cases ready : s.condCheck with
  | true => exact heartbeatsDone_keeps fits state running ready
  | false => exact keeps_wait .heartbeat fits state running (fun now => by cases now) ready

theorem sendHeartbeat_keeps (fits : s.Coherent h) (state : s.state = .idle) (running : h.Running true true) :
    Keeps lib h (s.sendHeartbeat o) :=
  keeps_cons ⟨running.connected, running.disconnected, running.returned⟩ (waitHeartbeat_keeps fits state running)

theorem streaminfoDone_keeps (fits : s.Coherent h) (state : s.state = .expectStreaminfo)
    (running : h.Running true false) (own : err ≠ .canceled ∧ err ≠ .disconnected) :
    Keeps lib h (s.streaminfoDone o err) := by
  obtain ⟨keyed, -, answered⟩ := fits.described state
  unfold streaminfoDone
  cases stop : s.shouldStop with
  | true => exact disconnect_keeps fits running own (.inr (.inl stop)) (by simp)
  | false =>
      cases finished : s.stateFinished with
      | false => exact disconnect_keeps fits running (by simp) (.inl (by simp)) (by simp)
      | true =>
          rw [if_neg Bool.false_ne_true, if_neg (by simp)]
          split
          case isTrue refused => exact disconnect_keeps fits running o.feedbackSender.2 (.inl refused) (by simp)
          case isFalse =>
            refine ⟨trivial, ?_⟩
            exact { crypt := fits.crypt
                    keys := fits.keys
                    big := fun now => by cases now
                    keyed := fun now => by cases now
                    described := fun now => by cases now
                    idle := fun _ => rfl
                    alive := fits.alive
                    feedback := fun _ => rfl
                    place := ⟨rfl, running, answered finished, keyed⟩
                    wakes := fun _ _ there => by cases there }

theorem waitStreaminfo_keeps (fits : s.Coherent h) (state : s.state = .expectStreaminfo)
    (running : h.Running true false) : Keeps lib h (s.waitStreaminfo o) := by
  unfold waitStreaminfo
  cases ready : s.condCheck with
  | true => exact streaminfoDone_keeps fits state running (by simp)
  | false => exact keeps_wait .streaminfo fits state running (fun now => by cases now) ready

theorem await_expectStreaminfo_coherent (fits : s.Coherent h) (keyed : s.takionCrypt.isSome = true)
    (unconnected : h.connected = false) : (s.await .expectStreaminfo).Coherent h :=
  { crypt := fits.crypt
    keys := fits.keys
    big := fun now => by cases now
    keyed := fun now => by cases now
    described := fun _ => ⟨keyed, unconnected, fun finished => by cases finished⟩
    idle := fun now => by cases now
    alive := fits.alive
    feedback := fits.feedback }

theorem bangDone_keeps (fits : s.Coherent h) (state : s.state = .expectBang) (running : h.Running true false)
    (own : err ≠ .canceled ∧ err ≠ .disconnected) : Keeps lib h (s.bangDone o err) := by
  unfold bangDone
  cases stop : s.shouldStop with
  | true => exact disconnect_keeps fits running own (.inr (.inl stop)) (by simp)
  | false =>
      cases finished : s.stateFinished with
      | false => exact disconnect_keeps fits running (by simp) (.inl (by simp)) (by simp)
      | true =>
          have described := await_expectStreaminfo_coherent fits (fits.keyed state finished) running.connected
          exact waitStreaminfo_keeps described rfl running

theorem waitBang_keeps (fits : s.Coherent h) (state : s.state = .expectBang) (running : h.Running true false) :
    Keeps lib h (s.waitBang o) := by
  unfold waitBang
  cases ready : s.condCheck with
  | true => exact bangDone_keeps fits state running (by simp)
  | false => exact keeps_wait .bang fits state running (fun now => by cases now) ready

theorem sendBig_keeps (fits : s.Coherent h) (running : h.Running false false) : Keeps lib h (s.sendBig o) := by
  have running' : (h.next (.sent .big o.big)).Running true false :=
    ⟨rfl, running.connected, running.disconnected, running.returned⟩
  have fits' : (s.await .expectBang).Coherent (h.next (.sent .big o.big)) :=
    { crypt := fits.crypt
      keys := fits.keys
      big := fun _ => rfl
      keyed := fun _ finished => by cases finished
      described := fun now => by cases now
      idle := fun now => by cases now
      alive := fits.alive
      feedback := fits.feedback }
  have permitted : h.Permitted lib (.sent .big o.big) := ⟨running.big, running.disconnected, running.returned⟩
  apply keeps_cons permitted
  split
  case isTrue refused => exact disconnect_keeps fits' running' o.big.2 (.inl refused) (by simp)
  case isFalse => exact waitBang_keeps fits' rfl running'

theorem takionConnectDone_keeps (fits : s.Coherent h) (running : h.Running false false)
    (congestion : s.congestionControl = true) (result : err = .success ∨ err = .timeout) :
    Keeps lib h (s.takionConnectDone o err) := by
  have never : h.connected = true → h.disconnected = true := by simp [running.connected]
  unfold takionConnectDone
  cases stop : s.shouldStop with
  | true => exact closeTakion_keeps fits running.returned never (.stopped running.big congestion stop result)
  | false =>
      rw [if_neg Bool.false_ne_true]
      split
      case isTrue refused =>
        refine closeTakion_keeps { fits with } running.returned never (.failed running.big rfl refused ?_)
        rcases result with rfl | rfl <;> simp
      case isFalse => exact sendBig_keeps fits running

theorem waitTakionConnect_keeps (fits : s.Coherent h) (state : s.state = .takionConnect)
    (running : h.Running false false) (congestion : s.congestionControl = true) :
    Keeps lib h (s.waitTakionConnect o) := by
  unfold waitTakionConnect
  cases ready : s.condCheck with
  | true => exact takionConnectDone_keeps fits running congestion (.inl rfl)
  | false => exact keeps_wait .takionConnect fits state running (fun _ => congestion) ready

theorem ret_keeps (fits : s.Coherent h) (joined : s.takionThread = .none ∨ s.takionThread = .ended)
    (open_ : h.returned = none) (told : h.connected = true → h.disconnected = true) (ends : s.EndsWith h err) :
    Keeps lib h (s.ret err) := by
  have permitted : h.Permitted lib (.returned err) := ⟨open_, told⟩
  refine ⟨⟨permitted, trivial⟩, ?_⟩
  exact { crypt := fits.crypt
          keys := fits.keys
          big := fits.big
          keyed := fits.keyed
          described := fits.described
          idle := fits.idle
          alive := fun alive => by rcases joined with joined | joined <;> simp [ret, joined] at alive
          feedback := fits.feedback
          place := ⟨rfl, joined, ends.frame id rfl id rfl rfl rfl, rfl, rfl, rfl⟩
          wakes := fun _ _ there => by cases there }

theorem begin_keeps (fits : s.Coherent h) (running : h.Running false false) (thread : s.takionThread = .none)
    (congestion : s.congestionControl = false) : Keeps lib h (s.begin o) := by
  have never : h.connected = true → h.disconnected = true := by simp [running.connected]
  unfold begin
  split
  case isTrue =>
    exact ret_keeps fits (.inl thread) running.returned never (.failed running.big congestion (by simp) (by simp))
  case isFalse =>
    split
    case isTrue =>
      refine ret_keeps { fits with } (.inl thread) running.returned never ?_
      exact .failed running.big congestion (by simp) (by simp)
    case isFalse =>
      have connecting (t : StreamTakionThread) (c : Bool) : Coherent { s.await .takionConnect with
          audioReceiver := some (), hapticsReceiver := some (), videoReceiver := some [], takionThread := t,
          congestionControl := c } h :=
        { crypt := fits.crypt
          keys := fits.keys
          big := fun now => by cases now
          keyed := fun now => by cases now
          described := fun now => by cases now
          idle := fun now => by cases now
          alive := fun _ => ⟨running.returned, rfl, rfl, rfl⟩
          feedback := fits.feedback }
      split
      case isTrue refused =>
        refine ret_keeps { connecting s.takionThread s.congestionControl with } (.inl thread) running.returned never ?_
        exact .failed running.big congestion refused o.takionConnect.2
      case isFalse =>
        split
        case isTrue refused =>
          refine closeTakion_keeps { connecting .handshake s.congestionControl with } running.returned never ?_
          exact .failed running.big congestion refused o.congestionControl.2
        case isFalse => exact waitTakionConnect_keeps { connecting .handshake true with } rfl running rfl

theorem stepRun_keeps (fits : s.Consistent h) : Keeps lib h (s.stepRun o) := by
  have here := fits.place
  unfold stepRun
  cases pc : s.runThread with
  | start =>
      rw [pc] at here
      exact begin_keeps fits.toCoherent here.1 here.2.1 here.2.2
  | waiting wait woken => exact ⟨trivial, fits⟩
  | connected =>
      rw [pc] at here
      obtain ⟨state, running, answered, keyed⟩ := here
      have permitted : h.Permitted lib .connected :=
        ⟨running.big, fits.crypt ▸ keyed, answered, running.connected, running.disconnected, running.returned⟩
      refine ⟨⟨permitted, trivial⟩, ?_⟩
      exact { crypt := fits.crypt
              keys := fits.keys
              big := fits.big
              keyed := fits.keyed
              described := fun now => by cases state.symm.trans now
              idle := fits.idle
              alive := fits.alive
              feedback := fits.feedback
              place := ⟨state, running.big, rfl, running.disconnected, running.returned⟩
              wakes := fun _ _ there => by cases there }
  | notified =>
      rw [pc] at here
      exact waitHeartbeat_keeps fits.toCoherent here.1 here.2
  | closing err =>
      rw [pc] at here
      dsimp only
      split
      case isTrue joined => exact ret_keeps fits.toCoherent (.inr joined) here.1 here.2.1 here.2.2
      case isFalse => exact ⟨trivial, fits⟩
  | returned err => exact ⟨trivial, fits⟩

theorem resume_keeps {wait : StreamWait} {woken : Bool} (fits : s.Coherent h) (place : s.At h (.waiting wait woken))
    (timeout : err = .success ∨ err = .timeout) (ready : err = .success → s.condCheck = true) :
    Keeps lib h (s.resume o err wait) := by
  have own : err ≠ .canceled ∧ err ≠ .disconnected := by rcases timeout with rfl | rfl <;> simp
  obtain ⟨state, running, congestion⟩ := place
  cases wait with
  | takionConnect => exact takionConnectDone_keeps fits running (congestion rfl) timeout
  | bang => exact bangDone_keeps fits state running own
  | streaminfo => exact streaminfoDone_keeps fits state running own
  | heartbeat =>
      rcases timeout with rfl | rfl
      · exact heartbeatsDone_keeps fits state running (ready rfl)
      · exact sendHeartbeat_keeps fits state running

theorem stepWake_keeps (timeout : Bool) (fits : s.Consistent h) : Keeps lib h (s.stepWake timeout o) := by
  have here := fits.place
  unfold stepWake
  cases pc : s.runThread with
  | waiting wait woken =>
      rw [pc] at here
      cases timeout with
      | true => exact resume_keeps fits.toCoherent here (.inr rfl) (by simp)
      | false =>
          dsimp only
          rw [if_neg Bool.false_ne_true]
          cases ready : s.condCheck with
          | true => exact resume_keeps fits.toCoherent here (.inl rfl) fun _ => ready
          | false => exact keeps_wait wait fits.toCoherent here.1 here.2.1 here.2.2 ready
  | _ => exact ⟨trivial, fits⟩

end Run

/-! ## The other threads -/

section Others
variable {lib : StreamConnectionLib} {s s' : StreamConnection} {h h' : StreamHistory}

/-- What a step of another thread leaves to the running thread. -/
structure Frame (s : StreamConnection) (h : StreamHistory) (s' : StreamConnection) (h' : StreamHistory) : Prop where
  state : s'.state = s.state
  congestion : s'.congestionControl = s.congestionControl
  thread : s.takionThread = .none → s'.takionThread = .none
  joined : s.takionThread = .ended → s'.takionThread = .ended
  stop : s.shouldStop = true → s'.shouldStop = true
  remote : s.remoteDisconnected = true → s'.remoteDisconnected = true
  crypt : s.takionCrypt.isSome = true → s'.takionCrypt.isSome = true
  big : h'.big = h.big
  connected : h'.connected = h.connected
  disconnected : h'.disconnected = h.disconnected
  returned : h'.returned = h.returned
  answered : h.answered = true → h'.answered = true
  released : h.returned.isSome = true → s'.audioReceiver = s.audioReceiver ∧
    s'.hapticsReceiver = s.hapticsReceiver ∧ s'.videoReceiver = s.videoReceiver

theorem Frame.running (frame : Frame s h s' h') {big connected : Bool} (running : h.Running big connected) :
    h'.Running big connected :=
  ⟨frame.big.trans running.big, frame.connected.trans running.connected,
    frame.disconnected.trans running.disconnected, frame.returned.trans running.returned⟩

theorem Frame.endsWith (frame : Frame s h s' h') {err : ErrorCode} (ends : s.EndsWith h err) : s'.EndsWith h' err :=
  ends.frame frame.stop frame.congestion frame.remote frame.big frame.disconnected frame.connected

theorem Frame.place (frame : Frame s h s' h') {point : RunThread} (place : s.At h point) : s'.At h' point := by
  cases point with
  | start => exact ⟨frame.running place.1, frame.thread place.2.1, frame.congestion.trans place.2.2⟩
  | waiting wait woken =>
      obtain ⟨state, running, congestion⟩ := place
      exact ⟨frame.state.trans state, frame.running running, fun now => frame.congestion.trans (congestion now)⟩
  | connected =>
      obtain ⟨state, running, answered, keyed⟩ := place
      exact ⟨frame.state.trans state, frame.running running, frame.answered answered, frame.crypt keyed⟩
  | notified => exact ⟨frame.state.trans place.1, frame.running place.2⟩
  | closing err =>
      obtain ⟨open_, told, ends⟩ := place
      refine ⟨frame.returned.trans open_, fun now => ?_, frame.endsWith ends⟩
      exact frame.disconnected.trans (told (frame.connected.symm.trans now))
  | returned err =>
      obtain ⟨returned, joined, ends, audio, haptics, video⟩ := place
      obtain ⟨audio', haptics', video'⟩ := frame.released (by simp [returned])
      exact ⟨frame.returned.trans returned, joined.imp frame.thread frame.joined, frame.endsWith ends,
        audio'.trans audio, haptics'.trans haptics, video'.trans video⟩

theorem At.signalled {point : RunThread} (place : s.At h point) : s.At h point.signalled := by
  cases point <;> exact place

theorem signalled_eq_waiting {point : RunThread} {wait : StreamWait} {woken : Bool}
    (waits : point.signalled = .waiting wait woken) : woken = true := by
  cases point <;> cases waits
  rfl

theorem signal_consistent (fits : s'.Coherent h') (frame : Frame s h s' h') (place : s.At h s.runThread)
    (same : s'.runThread = s.runThread) : s'.signal.Consistent h' := by
  have again : Frame s h s'.signal h' := { frame with }
  refine { fits with place := ?_, wakes := ?_ }
  · rw [show s'.signal.runThread = s.runThread.signalled from congrArg RunThread.signalled same]
    exact again.place place.signalled
  · intro wait woken waits _
    exact .inl (signalled_eq_waiting waits)

/-- A step of another thread that changes nothing the running thread waits for. -/
theorem silent_consistent (fits : s.Consistent h) (after : s'.Coherent h') (frame : Frame s h s' h')
    (same : s'.runThread = s.runThread) (ready : s'.condCheck = true → s.condCheck = true)
    (stopping : s'.stopping = s.stopping) : s'.Consistent h' := by
  refine { after with place := ?_, wakes := ?_ }
  · rw [same]
    exact frame.place fits.place
  · intro wait woken waits now
    rw [stopping]
    exact fits.wakes wait woken (same.symm.trans waits) (ready now)

theorem takionConnection_consistent (isConnected : Bool) (thread : StreamTakionThread) (fits : s.Consistent h)
    (begun : s.takionThread = .handshake ∨ s.takionThread = .receiving) :
    ({ s with takionThread := thread }.takionConnection isConnected).Consistent h := by
  have frame : Frame s h { s with takionThread := thread } h :=
    { state := rfl
      congestion := rfl
      thread := fun none => by simp [none] at begun
      joined := fun ended => by simp [ended] at begun
      stop := id, remote := id, crypt := id, big := rfl, connected := rfl, disconnected := rfl, returned := rfl
      answered := id, released := fun _ => ⟨rfl, rfl, rfl⟩ }
  have after : Coherent { s with takionThread := thread } h := { fits with alive := fun _ => fits.alive begun }
  unfold takionConnection
  split
  case isTrue state =>
    refine signal_consistent ?_ { frame with } fits.place rfl
    exact { after with
      keyed := fun now => by cases state.symm.trans now
      described := fun now => by cases state.symm.trans now
      idle := fun now => by cases state.symm.trans now }
  case isFalse => exact silent_consistent fits after frame rfl id rfl

theorem disconnected_consistent (reason : Option Bytes) (fits : s.Consistent h) :
    { s with remoteDisconnected := true, remoteDisconnectReason := reason }.signal.Consistent h := by
  refine signal_consistent { fits with } ?_ fits.place rfl
  exact ⟨rfl, rfl, id, id, id, fun _ => rfl, id, rfl, rfl, rfl, rfl, id, fun _ => ⟨rfl, rfl, rfl⟩⟩

theorem fail_consistent (fits : s.Consistent h) : s.fail.Consistent h := by
  refine signal_consistent { fits with } ?_ fits.place rfl
  exact ⟨rfl, rfl, id, id, id, id, id, rfl, rfl, rfl, rfl, id, fun _ => ⟨rfl, rfl, rfl⟩⟩

/-- Without a secret there are no keys. -/
theorem not_keyed (fits : s.Coherent h) (fresh : s.ecdhSecret = none) : s.takionCrypt = none := by
  cases crypt : s.takionCrypt with
  | none => rfl
  | some keys =>
      have kept := (fits.keys (by simp [crypt])).1
      simp [fresh] at kept

theorem unkeyed_consistent (secret : Bytes) (gkcryptRemote : Option StreamKey) (fits : s.Consistent h)
    (fresh : s.ecdhSecret = none) :
    { s with
      ecdhSecret := some secret, gkcryptLocal := none, gkcryptRemote := gkcryptRemote }.fail.Consistent h := by
  refine signal_consistent ?_ ?_ fits.place rfl
  · exact { fits with keys := fun keyed => by simp [not_keyed fits.toCoherent fresh] at keyed }
  · exact ⟨rfl, rfl, id, id, id, id, id, rfl, rfl, rfl, rfl, id, fun _ => ⟨rfl, rfl, rfl⟩⟩

theorem keyed_consistent (keys : StreamKey × StreamKey) (secret : Bytes) (fits : s.Consistent h)
    (state : s.state = .expectBang) :
    { s with
      ecdhSecret := some secret, gkcryptLocal := some keys.1, gkcryptRemote := some keys.2
      takionCrypt := some keys }.finish.Consistent { h with crypt := some keys } := by
  refine signal_consistent ?_ ?_ fits.place rfl
  · exact { fits with
      crypt := rfl
      keys := fun _ => ⟨rfl, rfl⟩
      keyed := fun _ _ => rfl
      described := fun now => by cases state.symm.trans now
      idle := fun now => by cases state.symm.trans now }
  · exact ⟨rfl, rfl, id, id, id, id, fun _ => rfl, rfl, rfl, rfl, rfl, id, fun _ => ⟨rfl, rfl, rfl⟩⟩

theorem answers_follow (o : CallbackOutcome) (describing : h.Describing) :
    let h' := (answers o).1.foldl next h
    Follows next (Permitted lib) h (answers o).1 ∧ Frame s h s h' ∧ h'.crypt = h.crypt ∧
      ((answers o).2 = true → h'.answered = true) := by
  unfold answers
  split
  case isTrue refused =>
    refine ⟨⟨describing, ⟨describing, rfl⟩, trivial⟩, ?_, rfl, fun done => by cases done⟩
    exact ⟨rfl, rfl, id, id, id, id, id, rfl, rfl, rfl, rfl, id, fun _ => ⟨rfl, rfl, rfl⟩⟩
  case isFalse taken =>
    have second : (h.next (.sent .streaminfoAck o.streaminfoAck)).next
        (.sent .controllerConnection o.controllerConnection) = { h with answers := 2 } := by
      simp only [next, not_not.mp taken, and_self, if_true]
    simp only [List.cons_append, List.nil_append, Follows, List.foldl_cons, List.foldl_nil, second]
    refine ⟨⟨describing, ⟨describing, rfl⟩, ⟨describing, rfl⟩, trivial⟩, ?_, rfl, fun done => ?_⟩
    · refine ⟨rfl, rfl, id, id, id, id, id, rfl, rfl, rfl, rfl, fun answered => ?_, fun _ => ⟨rfl, rfl, rfl⟩⟩
      simp [next, answered]
    · simpa [next] using Or.inr (of_decide_eq_true done)

/-- The answers are sent, and the receivers have been told. -/
theorem answered_keeps (o : CallbackOutcome) (known : List VideoProfile) (fits : s.Consistent h)
    (state : s.state = .expectStreaminfo) (describing : h.Describing) :
    Keeps lib h (if (answers o).2 then { s with videoReceiver := some known }.finish
      else { s with videoReceiver := some known }.fail, (answers o).1) := by
  obtain ⟨follows, frame, crypt, answered⟩ := @answers_follow lib s h o describing
  refine ⟨follows, ?_⟩
  have after (finished failed : Bool) (all : finished = true → s.stateFinished = true ∨ (answers o).2 = true) :
      Coherent { s with
        videoReceiver := some known, stateFinished := finished, stateFailed := failed } ((answers o).1.foldl next h) :=
    { crypt := crypt.trans fits.crypt
      keys := fits.keys
      big := fun now => by cases state.symm.trans now
      keyed := fun now => by cases state.symm.trans now
      described := fun _ => by
        refine ⟨(fits.described state).1, frame.connected.trans describing.2.1, fun now => ?_⟩
        exact (all now).elim (fun already => frame.answered ((fits.described state).2.2 already)) answered
      idle := fun now => by cases state.symm.trans now
      alive := fun alive =>
        ⟨frame.returned.trans describing.2.2, (fits.alive alive).2.1, (fits.alive alive).2.2.1, rfl⟩
      feedback := fits.feedback }
  split
  case isTrue all =>
    refine signal_consistent (after true s.stateFailed fun _ => .inr all) ?_ fits.place rfl
    exact { frame with released := fun returned => by simp [describing.2.2] at returned }
  case isFalse =>
    refine signal_consistent (after s.stateFinished true .inl) ?_ fits.place rfl
    exact { frame with released := fun returned => by simp [describing.2.2] at returned }

theorem stop_consistent (fits : s.Consistent h) :
    { s with shouldStop := true, stopping := s.stopping + 1 }.Consistent h := by
  have frame : Frame s h { s with shouldStop := true, stopping := s.stopping + 1 } h :=
    ⟨rfl, rfl, id, id, fun _ => rfl, id, id, rfl, rfl, rfl, rfl, id, fun _ => ⟨rfl, rfl, rfl⟩⟩
  exact { fits with
    place := frame.place fits.place
    wakes := fun _ _ _ _ => .inr (Nat.succ_pos _) }

theorem other_keeps {op : StreamConnectionOp} {r : Result} (fits : s.Consistent h) (step : Other lib s op r) :
    Keeps lib h r := by
  have open_ (receiving : s.takionThread = .receiving) : h.returned = none := (fits.alive (.inr receiving)).1
  cases step with
  | idle => exact ⟨trivial, fits⟩
  | takion thread isConnected begun => exact ⟨trivial, takionConnection_consistent isConnected thread fits begun⟩
  | disconnected reason receiving => exact ⟨trivial, disconnected_consistent reason fits⟩
  | failed => exact ⟨trivial, fail_consistent fits⟩
  | unkeyed secret gkcryptRemote fresh => exact ⟨trivial, unkeyed_consistent secret gkcryptRemote fits fresh⟩
  | keyed secret receiving state fresh =>
      have none_ : h.crypt = none := fits.crypt.trans (not_keyed fits.toCoherent fresh)
      refine ⟨⟨⟨fits.big state, none_, open_ receiving, secret, rfl, rfl⟩, trivial⟩, ?_⟩
      exact keyed_consistent (⟨2, lib.handshakeKey, secret⟩, ⟨3, lib.handshakeKey, secret⟩) secret fits state
  | answered o header known told receiving state video =>
      obtain ⟨keyed, unconnected, -⟩ := fits.described state
      have describing : h.Describing := ⟨fits.crypt ▸ keyed, unconnected, open_ receiving⟩
      have kept := @answered_keeps lib s h o known fits state describing
      rcases video with rfl | ⟨profiles, rfl⟩
      · exact ⟨⟨describing, kept.1⟩, kept.2⟩
      · exact ⟨⟨describing, describing, kept.1⟩, kept.2⟩
  | rumble unknown left right receiving => exact ⟨⟨open_ receiving, trivial⟩, fits⟩
  | triggerEffects typeLeft typeRight left right receiving => exact ⟨⟨open_ receiving, trivial⟩, fits⟩
  | av receiver receiving keyed => exact ⟨⟨⟨fits.crypt ▸ keyed, open_ receiving⟩, trivial⟩, fits⟩
  | stop => exact ⟨trivial, stop_consistent fits⟩
  | stopSignal =>
      refine ⟨trivial, signal_consistent { fits with } ?_ fits.place rfl⟩
      exact ⟨rfl, rfl, id, id, id, id, id, rfl, rfl, rfl, rfl, id, fun _ => ⟨rfl, rfl, rfl⟩⟩
  | setControllerState state sender given =>
      refine ⟨trivial, silent_consistent fits { fits with feedback := given } ?_ rfl id rfl⟩
      exact ⟨rfl, rfl, id, id, id, id, id, rfl, rfl, rfl, rfl, id, fun _ => ⟨rfl, rfl, rfl⟩⟩

theorem step_keeps {op : StreamConnectionOp} {r : Result} (fits : s.Consistent h) (done : step lib s op = .ok r) :
    Keeps lib h r := by
  rcases step_cases done with ⟨o, -, rfl⟩ | ⟨timeout, o, -, rfl⟩ | ⟨-, -, other⟩
  · exact stepRun_keeps fits
  · exact stepWake_keeps timeout fits
  · exact other_keeps fits other

end Others

/-! ## Runs -/

section Runs
variable {lib : StreamConnectionLib} {controllerState : ControllerState} {ops : List StreamConnectionOp}
  {s : StreamConnection} {outs : List (List StreamConnectionOut)}

theorem init_consistent (controllerState : ControllerState) : (init controllerState).Consistent {} where
  crypt := rfl
  keys := fun keyed => by cases keyed
  big := fun now => by cases now
  keyed := fun now => by cases now
  described := fun now => by cases now
  idle := fun _ => rfl
  alive := fun alive => by simp [init] at alive
  feedback := fun active => by cases active
  place := ⟨⟨rfl, rfl, rfl, rfl⟩, rfl, rfl⟩
  wakes := fun _ _ there => by cases there

theorem run_keeps (done : run (step lib) (init controllerState) ops = .ok (s, outs)) :
    Follows next (Permitted lib) {} outs.flatten ∧ s.Consistent (outs.flatten.foldl next {}) :=
  (along_true (init controllerState) ops).follows Consistent (fun _ _ _ _ _ fits _ stepped => step_keeps fits stepped)
    (init_consistent controllerState) done

def sampleBang : StreamMessage where
  type := .bang
  bangPayload := some ⟨true, true, [[4]], [[5]]⟩
  streamInfoPayload := none
  disconnectReason := []

def sampleStreaminfo : StreamMessage where
  type := .streaminfo
  bangPayload := none
  streamInfoPayload := some ⟨[[2, 16, 0, 0, 0xbb, 0x80, 0, 0, 1, 0xe0, 0, 0, 0, 1]], [⟨1280, 720, [[7]]⟩]⟩
  disconnectReason := []

/-- A bang and a streaminfo are messages of one byte. -/
def sampleLib : StreamConnectionLib where
  decode buf := if buf = [1] then some sampleBang else if buf = [2] then some sampleStreaminfo else none
  deriveSecret ecdhPubKey ecdhSig := some (ecdhPubKey ++ ecdhSig)
  handshakeKey := [3]

def sampleSuccess : CallResult := ⟨.success, by simp⟩

def sampleCalls : RunOutcome :=
  ⟨true, true, true, true, sampleSuccess, sampleSuccess, sampleSuccess, sampleSuccess, sampleSuccess, sampleSuccess⟩

def sampleCallback : CallbackOutcome :=
  ⟨true, true, true, true, fun _ => true, fun _ => true, .success, .success, .success⟩

/-- Everything goes well up to the report that the connection is there. -/
def sampleConnect : List StreamConnectionOp :=
  [.run sampleCalls, .takionConnected, .wake false sampleCalls, .data .protobuf [1] sampleCallback,
    .wake false sampleCalls, .data .protobuf [2] sampleCallback, .wake false sampleCalls, .run sampleCalls]

end Runs
end StreamConnection
end Chiaki
