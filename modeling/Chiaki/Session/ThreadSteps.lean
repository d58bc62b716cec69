import Chiaki.Session.Protocol

/-!
# The steps of the thread of a session

Each function of `session_thread_func` keeps the invariant, from one point to the next.
-/

namespace Chiaki.Session
open Machine SessionHistory

section Thread
variable {cfg : SessionConfig} {s : Session} {h : SessionHistory} {o : SessionOutcome} {r : Result}
  {lib : StreamConnectionLib}

theorem Consistent.reason (fits : s.Consistent h) (reason : QuitReason) :
    { s with quitReason := reason }.Consistent h := { fits with }

theorem go_keeps (fits : s.Consistent h) {q : SessionThread}
    (place : SessionPlace h s.registThread s.ctrl.thread s.stream.runThread q)
    (plain : q ≠ .done .pin ∧ q ≠ .forwarding) : Keeps lib h (s.go q) :=
  ⟨trivial, { fits with
    place := place
    ready := fun now => absurd now plain.1
    forwards := fun now => absurd now plain.2 }⟩

/-- The thread stays in its zone. -/
theorem move_keeps (fits : s.Consistent h) {p : SessionThread} (there : s.thread = p) (q : SessionThread)
    (zone : q.zone = p.zone) (stage : p.stage ≤ q.stage) (requests : p.Requested h.requests → q.Requested h.requests)
    (regist : p.Registers s.registThread → q.Registers s.registThread)
    (plain : (q ≠ .punched ∧ q ≠ .ended) ∧ q ≠ .done .pin ∧ q ≠ .forwarding) : Keeps lib h (s.go q) := by
  have place := fits.place
  rw [there] at place
  exact go_keeps fits (place.move q zone stage requests regist plain.1) plain.2

theorem idle_keeps (fits : s.Consistent h) : Keeps lib h (s, []) := ⟨trivial, fits⟩

theorem checkStop_keeps (fits : s.Consistent h) {quit : SessionThread}
    (place : SessionPlace h s.registThread s.ctrl.thread s.stream.runThread quit)
    (plain : quit ≠ .done .pin ∧ quit ≠ .forwarding) (next : Keeps lib h r) : Keeps lib h (s.checkStop quit r) := by
  unfold checkStop
  split
  · exact go_keeps (fits.reason .stopped) place plain
  · exact next

/-- The place at the end, before ctrl is started. -/
theorem Consistent.quits (fits : s.Consistent h) (zone : s.thread.zone = .regist ∨ s.thread.zone = .request)
    (joined : s.registThread = .none ∨ s.registThread = .ended) :
    SessionPlace h s.registThread s.ctrl.thread s.stream.runThread .quitting := by
  have place := fits.place
  have ctrl : s.ctrl.thread = .none := by
    have ctrl := place.ctrl
    rcases zone with there | there <;> rw [there] at ctrl <;> exact ctrl
  have run : s.stream.runThread = .start := by
    have stream := place.stream
    rcases zone with there | there <;> rw [there] at stream <;> exact stream
  have early : s.thread.stage ≤ 5 := by
    cases there : s.thread with
    | check wait | waiting wait | done wait => cases wait <;> simp [SessionThread.stage, SessionWait.stage]
    | ended => simp [SessionThread.zone, there] at zone
    | _ => simp [SessionThread.stage]
  rw [ctrl, run] at place ⊢
  exact place.quits joined early

theorem begin_keeps (fits : s.Consistent h) (there : s.thread = .begun) : Keeps lib h (s.begin cfg o) := by
  have place := fits.place
  rw [there] at place
  have none : s.registThread = .none := place.regist
  refine checkStop_keeps fits (fits.quits (by rw [there]; exact .inl rfl) (.inl none)) (by simp) ?_
  split
  · have start : h.stage = 0 := Nat.le_zero.mp place.stage
    refine ⟨trivial, { fits with
      place := ⟨?_, place.requests, ?_, fun _ => start, place.ctrl, place.stream,
        (fun now => by cases now), fun now => by cases now⟩
      ready := fun now => by cases now
      forwards := fun now => by cases now }⟩
    · exact start.le.trans (Nat.zero_le _)
    · exact fun now => by cases now
  · refine go_keeps fits ⟨place.stage.trans (Nat.zero_le _), ?_, .inl none, place.running, place.ctrl, place.stream,
      (fun now => by cases now), fun now => by cases now⟩ (by simp)
    have first : h.requests = 0 := place.requests
    exact ⟨by rw [first], by decide⟩

theorem registered_keeps (fits : s.Consistent h) (there : s.thread = .registered) :
    Keeps lib h (s.checkStop .quitting (s.go (.request 1))) := by
  have place := fits.place
  rw [there] at place
  have ended : s.registThread = .ended := place.regist
  refine checkStop_keeps fits (fits.quits (by rw [there]; exact .inl rfl) (.inr ended)) (by simp) ?_
  refine go_keeps fits ⟨place.stage, ?_, .inr ended, place.running, place.ctrl, place.stream,
    (fun now => by cases now), fun now => by cases now⟩ (by simp)
  have first : h.requests = 0 := place.requests
  exact ⟨by rw [first], by decide⟩

/-! ## Requests -/

/-- A request is over before anything was sent. -/
theorem requested_failed {attempt : Nat} {err : ErrorCode} (wrong : err ≠ .success ∧ err ≠ .versionMismatch)
    (sent : attempt = h.requests + 1 ∧ attempt ≤ 3) : (SessionThread.requestDone attempt err).Requested h.requests :=
  ⟨by rw [sent.1]; exact Nat.succ_pos _, sent.2, fun now => absurd now (by simp [wrong])⟩

theorem RequestResult.wrong (result : RequestResult) (failed : result.1 ≠ .success) :
    result.1 ≠ .success ∧ result.1 ≠ .versionMismatch := ⟨failed, result.2.2⟩

theorem beginRequest_keeps {attempt : Nat} (fits : s.Consistent h) (there : s.thread = .request attempt) :
    Keeps lib h (s.beginRequest cfg o attempt) := by
  unfold beginRequest
  split
  · split
    case isTrue failed =>
      exact move_keeps fits there _ rfl (le_refl _) (requested_failed (RequestResult.wrong _ failed)) id (by simp)
    · split
      case isTrue failed =>
        exact move_keeps fits there _ rfl (le_refl _) (requested_failed (RequestResult.wrong _ failed)) id (by simp)
      · exact move_keeps fits there _ rfl (le_refl _) id id (by simp)
  · exact move_keeps fits there _ rfl (le_refl _) id id (by simp)

theorem connectNext_keeps {attempt : Nat} {addrinfos : List AddressFamily} (fits : s.Consistent h)
    (there : s.thread = .connectNext attempt addrinfos) : Keeps lib h (s.connectNext o attempt addrinfos) := by
  cases addrinfos with
  | nil =>
      have failed := fits.reason (s.quitReason.orElse .sessionRequestUnknown)
      exact move_keeps failed there (.requestDone attempt .network) rfl (le_refl _) (requested_failed (by simp)) id
        (by simp)
  | cons ai rest =>
      have fits' : { s with hostname := o.getnameinfo.getD (text "unknown") }.Consistent h := { fits with }
      simp only [connectNext]
      split
      · exact move_keeps fits there (.connectNext attempt rest) rfl (le_refl _) id id (by simp)
      · split
        · exact move_keeps fits' there (.connecting attempt rest) rfl (le_refl _) id id (by simp)
        · exact move_keeps fits' there (.connectNext attempt rest) rfl (le_refl _) id id (by simp)

theorem connected_keeps {attempt : Nat} {rest : List AddressFamily} (fits : s.Consistent h)
    (there : s.thread = .connecting attempt rest) : Keeps lib h (s.connected o attempt rest) := by
  have stopped := fits.reason .stopped
  have refused := fits.reason .sessionRequestConnectionRefused
  have failed := fits.reason .none
  unfold connected
  split
  · exact move_keeps stopped there (.requestDone attempt .network) rfl (le_refl _) (requested_failed (by simp)) id
      (by simp)
  · split
    · exact move_keeps refused there (.connectNext attempt rest) rfl (le_refl _) id id (by simp)
    · split
      · exact move_keeps failed there (.connectNext attempt rest) rfl (le_refl _) id id (by simp)
      · exact move_keeps fits there (.send attempt) rfl (le_refl _) id id (by simp)

/-- Why a request cannot be written. -/
theorem sessionRequest_error {target : Target} {hostname registKey : Bytes} {port : Nat} {err : ErrorCode}
    (done : sessionRequest target hostname port registKey = .ok (.error err)) :
    err ≠ .success ∧ err ≠ .versionMismatch := by
  unfold sessionRequest at done
  obtain ⟨hex, -, done⟩ := bind_eq_ok done
  dsimp only at done
  split at done
  · cases done
    simp
  · split at done
    · cases done
      simp
    · obtain ⟨written, -, done⟩ := bind_eq_ok done
      split at done
      · cases done
        simp
      · cases done

theorem sendRequest_keeps {attempt : Nat} (fits : s.Consistent h) (there : s.thread = .send attempt)
    (done : s.sendRequest cfg o attempt = .ok r) : Keeps lib h r := by
  unfold sendRequest at done
  dsimp only at done
  generalize hostname : (if cfg.holepunchSession then { s with hostname := o.holepunchAddr } else s) = s' at done
  have named : ∃ name, s' = { s with hostname := name } := by
    subst hostname
    split
    · exact ⟨_, rfl⟩
    · exact ⟨_, rfl⟩
  obtain ⟨name, rfl⟩ := named
  have fits' : { s with hostname := name }.Consistent h := { fits with }
  obtain ⟨written, request, done⟩ := bind_eq_ok done
  cases written with
  | error err =>
      cases done
      exact move_keeps (fits'.reason .sessionRequestUnknown) there (.requestDone attempt err) rfl (le_refl _)
        (requested_failed (sessionRequest_error request)) id (by simp)
  | ok request' =>
      dsimp only at done
      split at done
      · cases done
        exact move_keeps (fits'.reason .sessionRequestUnknown) there (.requestDone attempt .network) rfl (le_refl _)
          (requested_failed (by simp)) id (by simp)
      · cases done
        have place := fits.place
        rw [there] at place
        have sent : attempt = h.requests + 1 ∧ attempt ≤ 3 := place.requests
        have joined : s.registThread = .none ∨ s.registThread = .ended := place.regist
        refine ⟨⟨⟨place.stage, sent.1, sent.2, fits.target⟩, trivial⟩, { fits with
          place := ⟨le_refl _, ⟨sent.1, by rw [sent.1]; exact Nat.succ_pos _, sent.2⟩, place.regist,
            fun running => absurd running (not_running joined), place.ctrl, place.stream,
            (fun now => by cases now), fun now => by cases now⟩
          pins := { fits.pins with }
          ready := fun now => by cases now
          forwards := fun now => by cases now }⟩

theorem received_keeps {attempt : Nat} (fits : s.Consistent h) (there : s.thread = .receiving attempt)
    (done : s.received cfg o attempt = .ok r) : Keeps lib h r := by
  have sent (err : ErrorCode) (now : (SessionThread.receiving attempt).Requested h.requests) :
      (SessionThread.requestDone attempt err).Requested h.requests := ⟨now.2.1, now.2.2, fun _ => now.1⟩
  have gone (s' : Session) (fits' : s'.Consistent h) (here : s'.thread = .receiving attempt) (err : ErrorCode) :
      Keeps lib h (s'.go (.requestDone attempt err)) :=
    move_keeps fits' here (.requestDone attempt err) rfl (le_refl _) (sent err) id (by simp)
  unfold received at done
  split at done
  · cases done
    exact gone _ (fits.reason .stopped) there .network
  · split at done
    · cases done
      exact gone _ (fits.reason .sessionRequestUnknown) there .network
    · split at done
      · cases done
        exact gone _ fits there o.rudpFinish
      · split at done
        · cases done
          exact gone _ (fits.reason .sessionRequestUnknown) there .network
        · obtain ⟨rpVersion, -, done⟩ := bind_eq_ok done
          obtain ⟨answer, -, done⟩ := bind_eq_ok done
          cases done
          have fits' : { s with
            quitReason := answer.quitReason.getD s.quitReason
            serverTarget := answer.target.getD s.serverTarget
            nonce := answer.nonce.getD s.nonce }.Consistent h := { fits with }
          exact gone _ fits' there answer.err

theorem requestDone_keeps {attempt : Nat} {err : ErrorCode} (fits : s.Consistent h)
    (there : s.thread = .requestDone attempt err) : Keeps lib h (s.requestDone attempt err) := by
  have place := fits.place
  rw [there] at place
  obtain ⟨positive, few, answered⟩ := place.requests
  unfold requestDone
  split
  case isTrue again =>
    obtain ⟨more, mismatch, known⟩ := again
    have fits' : { s with target := s.serverTarget }.Consistent h := { fits with target := known }
    exact move_keeps fits' there (.request (attempt + 1)) rfl (le_refl _)
      (fun _ => ⟨congrArg (· + 1) (answered (.inr mismatch)), more⟩) id (by simp)
  · split
    · exact go_keeps fits (fits.quits (by rw [there]; exact .inr rfl) place.regist) (by simp)
    case isFalse success =>
      have all : attempt = h.requests := answered (.inl (not_not.mp success))
      exact move_keeps fits there _ rfl (le_refl _) (fun _ => by rw [all] at positive; exact positive) id (by simp)

/-! ## Behind the requests -/

/-- To the point where ctrl is stopped. -/
theorem Consistent.quitsCtrl (fits : s.Consistent h) {p : SessionThread} (there : s.thread = p) (zone : p.zone = .ctrl)
    (requested : p.Requested h.requests → 0 < h.requests)
    (regist : p.Registers s.registThread → s.registThread = .none ∨ s.registThread = .ended) (stage : p.stage ≤ 5) :
    SessionPlace h s.registThread s.ctrl.thread s.stream.runThread .ctrlStop := by
  have place := fits.place
  rw [there] at place
  exact place.quitsCtrl (.inl zone) requested regist stage

theorem check_keeps {wait : SessionWait} (fits : s.Consistent h) (there : s.thread = .check wait) :
    Keeps lib h (s.go (if s.condition wait then .done wait else .waiting wait)) := by
  have place := fits.place
  rw [there] at place
  cases ready : s.condition wait with
  | false =>
      simp only [Bool.false_eq_true, if_false]
      refine move_keeps fits there (.waiting wait) rfl (le_refl _) ?_ ?_ (by simp)
      · cases wait <;> exact id
      · cases wait <;> exact id
  | true =>
      simp only [if_true]
      refine ⟨trivial, { fits with
        place := place.move (.done wait) rfl (le_refl _) ?_ ?_ (by simp)
        ready := fun now => by cases now; exact ready
        forwards := fun now => by cases now }⟩
      · cases wait <;> exact id
      · cases wait <;> exact id

theorem startCtrl_keeps (fits : s.Consistent h) (there : s.thread = .done .settle) : Keeps lib h (s.startCtrl o) := by
  have place := fits.place
  rw [there] at place
  have started : SessionCtrlThread.starting ≠ .none := by simp
  unfold startCtrl
  split
  · exact ⟨trivial, { fits with
      place := ⟨place.stage.trans (Nat.le_succ 1), place.requests, place.regist, place.running, started,
        place.stream, (fun now => by cases now), fun now => by cases now⟩
      ready := fun now => by cases now
      forwards := fun now => by cases now }⟩
  · exact go_keeps fits (fits.quits (by rw [there]; exact .inr rfl) place.regist) (by simp)

theorem waited_keeps {wait : SessionWait} (fits : s.Consistent h) (there : s.thread = .done wait)
    (done : s.waited o wait = .ok r) : Keeps lib h r := by
  cases wait with
  | regist =>
      cases done
      exact move_keeps fits there .registJoin rfl (le_refl _) id id (by simp)
  | settle =>
      cases done
      exact startCtrl_keeps fits there
  | ctrlStart =>
      cases done
      refine checkStop_keeps fits (fits.quitsCtrl there rfl id id (by decide)) (by simp) ?_
      split
      · exact move_keeps fits there .ctrlFailed rfl (by decide) id id (by simp)
      · exact move_keeps fits there .pinLoop rfl (by decide) id id (by simp)
  | pin =>
      simp only [waited] at done
      split at done
      · cases done
        exact go_keeps (fits.reason .stopped) (fits.quitsCtrl there rfl id id (by decide)) (by simp)
      · split at done
        · cases done
          exact move_keeps fits there .ctrlFailed rfl (by decide) id id (by simp)
        · obtain ⟨_, entered, done⟩ := bind_eq_ok done
          cases done
          have place := fits.place
          rw [there] at place
          have pin : s.loginPin.isSome = true := by
            cases entered' : s.loginPin with
            | some pin => rfl
            | none => simp [Chiaki.assert, entered'] at entered
          exact ⟨trivial, { fits with
            place := place.move .forwarding rfl (le_refl _) id id (by simp)
            ready := fun now => by cases now
            forwards := fun _ => pin }⟩
  | pinReply =>
      cases done
      refine checkStop_keeps fits (fits.quitsCtrl there rfl id id (by decide)) (by simp) ?_
      exact move_keeps fits there .pinLoop rfl (by decide) id id (by simp)
  | holepunch =>
      cases done
      refine checkStop_keeps fits (fits.quitsCtrl there rfl id id (by decide)) (by simp) ?_
      exact move_keeps fits there .sessionId rfl (by decide) id id (by simp)
  | switch =>
      simp only [waited] at done
      split at done
      · cases done
        exact go_keeps fits (fits.quitsCtrl there rfl id id (by decide)) (by simp)
      · cases done
        refine checkStop_keeps fits (fits.quitsCtrl there rfl id id (by decide)) (by simp) ?_
        exact move_keeps fits there .startStream rfl (by decide) id id (by simp)

theorem pinLoop_keeps (fits : s.Consistent h) (there : s.thread = .pinLoop) : Keeps lib h s.pinLoop := by
  have place := fits.place
  rw [there] at place
  unfold pinLoop
  split
  · refine ⟨⟨⟨place.alive id (by decide), place.stage, fits.pinRequested.symm⟩, trivial⟩, { fits with
      place := ⟨le_refl _, place.requests, place.regist, fun running => absurd running (not_running place.regist),
        place.ctrl, place.stream, (fun now => by cases now), fun now => by cases now⟩
      pins := { fits.pins with }
      ready := fun now => by cases now
      forwards := fun now => by cases now
      pinRequested := rfl }⟩
  · exact move_keeps fits there .punchHole rfl (le_refl _) id id (by simp)

/-- What happens to the buffers leaves no trace in the history. -/
theorem follows_buffers {outs : List SessionOut} (buffers : ∀ out ∈ outs, ∃ b, out = .allocated b ∨ out = .freed b) :
    Follows SessionHistory.next (Permitted lib) h outs ∧ outs.foldl SessionHistory.next h = h := by
  induction outs with
  | nil => exact ⟨trivial, rfl⟩
  | cons out outs ih =>
      have rest := ih fun out there => buffers out (List.mem_cons_of_mem _ there)
      obtain ⟨b, rfl | rfl⟩ := buffers out List.mem_cons_self
      · exact ⟨⟨trivial, rest.1⟩, rest.2⟩
      · exact ⟨⟨trivial, rest.1⟩, rest.2⟩

theorem freePin_buffers (pin : Option LoginPin) (out : SessionOut) (there : out ∈ freePin pin) :
    ∃ b, out = .allocated b ∨ out = .freed b := by
  cases pin with
  | none => cases there
  | some pin => exact ⟨pin.buffer, .inr (List.mem_singleton.mp there)⟩

theorem ctrlSetLoginPin_buffers (malloc : Bool) (pin : LoginPin) (out : SessionOut)
    (there : out ∈ (s.ctrlSetLoginPin malloc pin).2) : ∃ b, out = .allocated b ∨ out = .freed b := by
  unfold ctrlSetLoginPin at there
  split at there
  · cases there
  · rcases List.mem_cons.mp there with rfl | there
    · exact ⟨_, .inl rfl⟩
    · split at there
      · exact freePin_buffers _ out there
      · cases there

theorem forward_keeps (fits : s.Consistent h) (there : s.thread = .forwarding) (done : s.forward o = .ok r) :
    Keeps lib h r := by
  have place := fits.place
  rw [there] at place
  unfold forward at done
  obtain ⟨pin, entered, done⟩ := bind_eq_ok done
  have own : s.loginPin = some pin := by
    cases given : s.loginPin with
    | none =>
        rw [given] at entered
        cases entered
    | some pin' =>
        rw [given] at entered
        cases entered
        rfl
  cases done
  have buffers := @follows_buffers h lib ((s.ctrlSetLoginPin o.mallocPin pin).2 ++ freePin s.loginPin)
    (fun out there => by
      rcases List.mem_append.mp there with there | there
      · exact ctrlSetLoginPin_buffers _ _ out there
      · exact freePin_buffers _ out there)
  refine ⟨buffers.1, ?_⟩
  rw [buffers.2]
  have place' := place.move (.check .pinReply) rfl (le_refl _) id id (by simp)
  unfold ctrlSetLoginPin
  split
  · exact { fits with
      place := place'
      pins := { fits.pins with
        own := fun p now => by cases now
        order := fun p q _ now => by cases now }
      entered := rfl
      ready := fun now => by cases now
      forwards := fun now => by cases now }
  · exact { fits with
      place := place'
      pins := { fits.pins with
        own := fun p now => by cases now
        given := fun p now => by
          cases now
          exact fits.pins.own pin own
        order := fun p q _ now => by cases now }
      entered := rfl
      ctrlEntered := rfl
      ready := fun now => by cases now
      forwards := fun now => by cases now }

theorem punchHole_keeps (fits : s.Consistent h) (there : s.thread = .punchHole) : Keeps lib h s.punchHole := by
  have place := fits.place
  rw [there] at place
  unfold punchHole
  split
  · exact ⟨⟨⟨place.alive id (by decide), place.stage⟩, trivial⟩, { fits with
      place := ⟨le_refl _, place.requests, place.regist, fun running => absurd running (not_running place.regist),
        place.ctrl, place.stream, fun _ => rfl, fun now => by cases now⟩
      pins := { fits.pins with }
      ready := fun now => by cases now
      forwards := fun now => by cases now }⟩
  · exact move_keeps fits there .sessionId rfl (by decide) id id (by simp)

theorem punched_keeps (fits : s.Consistent h) (there : s.thread = .punched) : Keeps lib h (s.punched o) := by
  have place := fits.place
  rw [there] at place
  unfold punched
  split
  · exact ⟨⟨place.punching rfl, trivial⟩, { fits with
      place := ⟨le_refl _, place.requests, place.regist, fun running => absurd running (not_running place.regist),
        place.ctrl, place.stream, (fun now => by cases now), fun now => by cases now⟩
      pins := { fits.pins with }
      ready := fun now => by cases now
      forwards := fun now => by cases now }⟩
  · exact go_keeps fits (fits.quitsCtrl there rfl id id (by decide)) (by simp)

theorem fallback_keeps (fits : s.Consistent h) (there : s.thread = .fallback) : Keeps lib h (s.fallback o) := by
  unfold fallback
  split
  · exact move_keeps fits there (.fallbackDone o.fallback) rfl (le_refl _) id id (by simp)
  · split
    · exact move_keeps fits there (.fallbackDone .success) rfl (le_refl _) id id (by simp)
    · exact move_keeps fits there .fallbackSet rfl (le_refl _) id id (by simp)

theorem senkusha_keeps (fits : s.Consistent h) (there : s.thread = .senkusha) : Keeps lib h (s.senkusha o) := by
  unfold senkusha
  split
  · exact go_keeps fits (fits.quitsCtrl there rfl id id (by decide)) (by simp)
  · have fits' : { s with
      mtuIn := (o.senkusha.getD (1454, 1454, 1000)).1
      mtuOut := (o.senkusha.getD (1454, 1454, 1000)).2.1
      rttUs := (o.senkusha.getD (1454, 1454, 1000)).2.2 }.Consistent h := { fits with }
    dsimp only
    split
    · exact move_keeps fits' there .switch rfl (le_refl _) id id (by simp)
    · exact move_keeps fits' there .startStream rfl (le_refl _) id id (by simp)

theorem startStream_keeps (fits : s.Consistent h) (there : s.thread = .startStream) :
    Keeps lib h (s.go (if o.randomBytes && o.ecdhInit then .streaming else .ctrlStop)) := by
  have place := fits.place
  rw [there] at place
  split
  · exact go_keeps fits ⟨place.stage.trans (by decide), place.requests, place.regist, place.running, place.ctrl,
      trivial, (fun now => by cases now), fun now => by cases now⟩ (by simp)
  · exact go_keeps fits (fits.quitsCtrl there rfl id id (by decide)) (by simp)

theorem streamDone_keeps {err : ErrorCode} (fits : s.Consistent h) (there : s.thread = .streaming)
    (returned : s.stream.runThread = .returned err) (done : s.streamDone o err = .ok r) : Keeps lib h r := by
  have place := fits.place
  rw [there] at place
  have place' := place.quitsCtrl (.inr (.inr ⟨rfl, err, returned⟩)) id id (by decide)
  unfold streamDone at done
  split at done
  · obtain ⟨reason, -, done⟩ := bind_eq_ok done
    cases done
    have fits' : { s with
      quitReason := if reason = text "Server shutting down" then .streamConnectionRemoteShutdown
        else .streamConnectionRemoteDisconnected
      quitReasonStr := if o.strdup then some reason else none }.Consistent h := { fits with }
    exact go_keeps fits' place' (by simp)
  · split at done
    · cases done
      exact go_keeps (fits.reason .streamConnectionUnknown) place' (by simp)
    · cases done
      exact go_keeps (fits.reason .stopped) place' (by simp)

theorem quitting_keeps (fits : s.Consistent h) (there : s.thread = .quitting) :
    Keeps lib h (s.goto .ended, [.event (.quit s.quitReason s.quitReasonStr)]) := by
  have place := fits.place
  rw [there] at place
  exact ⟨⟨lt_of_le_of_lt place.stage (by decide), trivial⟩, { fits with
    place := ⟨le_refl _, trivial, place.regist, fun running => absurd running (not_running place.regist), place.ctrl,
      place.stream, (fun now => by cases now), fun _ => rfl⟩
    pins := { fits.pins with }
    ready := fun now => by cases now
    forwards := fun now => by cases now }⟩

theorem runLocked_keeps (fits : s.Consistent h) (done : s.runLocked cfg o = .ok r) : Keeps lib h r := by
  unfold runLocked at done
  split at done
  case h_1 there =>
    cases done
    exact move_keeps fits there .begun rfl (le_refl _) id id (by simp)
  case h_2 there =>
    cases done
    exact begin_keeps fits there
  case h_3 there =>
    cases done
    split
    case isTrue ended =>
      have place := fits.place
      rw [there] at place
      exact go_keeps fits (place.move .registered rfl (le_refl _) id (fun _ => ended) (by simp)) (by simp)
    · exact idle_keeps fits
  case h_4 there =>
    cases done
    exact registered_keeps fits there
  case h_5 attempt there =>
    cases done
    exact beginRequest_keeps fits there
  case h_6 attempt addrinfos there =>
    cases done
    exact connectNext_keeps fits there
  case h_7 attempt rest there =>
    cases done
    exact connected_keeps fits there
  case h_8 attempt there => exact sendRequest_keeps fits there done
  case h_9 attempt there => exact received_keeps fits there done
  case h_10 attempt err there =>
    cases done
    exact requestDone_keeps fits there
  case h_11 wait there =>
    cases done
    exact check_keeps fits there
  case h_12 wait there => exact waited_keeps fits there done
  case h_13 there =>
    cases done
    exact pinLoop_keeps fits there
  case h_14 there =>
    split at done
    · cases done
      exact idle_keeps fits
    · exact forward_keeps fits there done
  case h_15 there =>
    cases done
    exact punchHole_keeps fits there
  case h_16 there =>
    cases done
    exact punched_keeps fits there
  case h_17 there =>
    cases done
    split
    · exact move_keeps fits there .senkusha rfl (le_refl _) id id (by simp)
    · exact move_keeps fits there .fallback rfl (le_refl _) id id (by simp)
  case h_18 there =>
    cases done
    have fits' : { s with ctrlSessionIdReceived := true }.Consistent h := { fits with }
    exact move_keeps fits' there (.fallbackDone .success) rfl (le_refl _) id id (by simp)
  case h_19 err there =>
    cases done
    split
    · exact move_keeps fits there .ctrlFailed rfl (Nat.le_succ 4) id id (by simp)
    · exact move_keeps fits there .senkusha rfl (le_refl _) id id (by simp)
  case h_20 there =>
    cases done
    exact go_keeps (fits.reason _) (fits.quitsCtrl there rfl id id (le_refl _)) (by simp)
  case h_21 there =>
    cases done
    exact senkusha_keeps fits there
  case h_22 there =>
    cases done
    split
    · exact move_keeps fits there (.check .switch) rfl (le_refl _) id id (by simp)
    · exact go_keeps fits (fits.quitsCtrl there rfl id id (by decide)) (by simp)
  case h_23 there =>
    cases done
    exact startStream_keeps fits there
  case h_24 there =>
    split at done
    case h_1 err returned => exact streamDone_keeps fits there returned done
    · cases done
      exact idle_keeps fits
  all_goals
    cases done
    exact idle_keeps fits

theorem stepRun_keeps (fits : s.Consistent h) (done : s.stepRun cfg o = .ok r) : Keeps lib h r := by
  unfold stepRun at done
  split at done
  case h_1 there =>
    cases done
    exact fallback_keeps fits there
  case h_2 there =>
    split at done
    · cases done
      exact idle_keeps fits
    · cases done
      have fits' : { s with ctrl := { s.ctrl with shouldStop := true, notifPipe := true } }.Consistent h :=
        { fits with }
      exact move_keeps fits' there .ctrlJoin rfl (le_refl _) id id (by simp)
  case h_3 there =>
    split at done
    case isTrue ended =>
      cases done
      have place := fits.place
      rw [there] at place
      exact go_keeps fits ⟨place.stage, trivial, place.regist, place.running, .inr ended, place.stream,
        (fun now => by cases now), fun now => by cases now⟩ (by simp)
    · cases done
      exact idle_keeps fits
  case h_4 there =>
    cases done
    exact quitting_keeps fits there
  case h_5 =>
    split at done
    · exact runLocked_keeps fits done
    · cases done
      exact idle_keeps fits

theorem stepWake_keeps (fits : s.Consistent h) (timeout : Bool) : Keeps lib h (s.stepWake timeout) := by
  unfold stepWake
  split
  case h_1 wait there =>
    split
    · exact idle_keeps fits
    · split
      case isTrue elapsed =>
        refine move_keeps fits there (.done wait) rfl (le_refl _) ?_ ?_ ?_
        · cases wait <;> exact id
        · cases wait <;> exact id
        · cases wait <;> simp at elapsed ⊢
      · refine move_keeps fits there (.check wait) rfl (le_refl _) ?_ ?_ (by simp)
        · cases wait <;> exact id
        · cases wait <;> exact id
  · exact idle_keeps fits

end Thread

end Chiaki.Session
