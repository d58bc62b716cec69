import Chiaki.Lib.Account
import Chiaki.Session.Order

/-!
# The login PINs of a session

Each PIN is copied twice on its way to the console. No copy is lost, and none is freed twice.
-/

namespace Chiaki.Session
open Machine SessionHistory

def allocatedBuffer : SessionOut → Option Nat
  | .allocated buffer => some buffer
  | _ => none

def freedBuffer : SessionOut → Option Nat
  | .freed buffer => some buffer
  | _ => none

/-- The copies that the session and ctrl have. -/
def copies (s : Session) : List Nat := (s.loginPin.toList ++ s.ctrl.loginPin.toList).map (·.buffer)

/-- The step leaves the PINs alone. -/
structure Untouched (s : Session) (r : Result) : Prop where
  loginPin : r.1.loginPin = s.loginPin
  ctrlPin : r.1.ctrl.loginPin = s.ctrl.loginPin
  buffers : r.1.buffers = s.buffers
  silent : ∀ out ∈ r.2, allocatedBuffer out = none ∧ freedBuffer out = none

section Untouched
variable {cfg : SessionConfig} {s : Session} {o : SessionOutcome} {r : Result}

theorem untouched_go (s : Session) (q : SessionThread) : s.Untouched (s.go q) := ⟨rfl, rfl, rfl, by simp [go]⟩

theorem untouched_idle (s : Session) : s.Untouched (s, []) := ⟨rfl, rfl, rfl, by simp⟩

theorem untouched_checkStop (q : SessionThread) (next : s.Untouched r) : s.Untouched (s.checkStop q r) := by
  unfold checkStop
  split
  · exact ⟨rfl, rfl, rfl, by simp⟩
  · exact next

theorem untouched_begin : s.Untouched (s.begin cfg o) := by
  refine untouched_checkStop _ ?_
  split
  · exact ⟨rfl, rfl, rfl, by simp⟩
  · exact untouched_go s _

theorem untouched_beginRequest (attempt : Nat) : s.Untouched (s.beginRequest cfg o attempt) := by
  unfold beginRequest
  repeat' split
  all_goals exact untouched_go s _

theorem untouched_connectNext (attempt : Nat) (addrinfos : List AddressFamily) :
    s.Untouched (s.connectNext o attempt addrinfos) := by
  cases addrinfos with
  | nil => exact ⟨rfl, rfl, rfl, by simp [connectNext]⟩
  | cons ai rest =>
      simp only [connectNext]
      split
      · exact untouched_go s _
      · exact ⟨rfl, rfl, rfl, by simp [go]⟩

theorem untouched_connected (attempt : Nat) (rest : List AddressFamily) :
    s.Untouched (s.connected o attempt rest) := by
  unfold connected
  repeat' split
  all_goals exact ⟨rfl, rfl, rfl, by simp [go]⟩

theorem untouched_sendRequest {attempt : Nat} (done : s.sendRequest cfg o attempt = .ok r) : s.Untouched r := by
  unfold sendRequest at done
  dsimp only at done
  generalize hostname : (if cfg.holepunchSession then { s with hostname := o.holepunchAddr } else s) = s' at done
  have named : ∃ name, s' = { s with hostname := name } := by
    subst hostname
    split
    · exact ⟨_, rfl⟩
    · exact ⟨_, rfl⟩
  obtain ⟨name, rfl⟩ := named
  obtain ⟨written, -, done⟩ := bind_eq_ok done
  cases written with
  | error err =>
      cases done
      exact ⟨rfl, rfl, rfl, by simp [requestFailed]⟩
  | ok request =>
      dsimp only at done
      split at done
      · cases done
        exact ⟨rfl, rfl, rfl, by simp [requestFailed]⟩
      · cases done
        exact ⟨rfl, rfl, rfl, by simp [allocatedBuffer, freedBuffer]⟩

theorem untouched_received {attempt : Nat} (done : s.received cfg o attempt = .ok r) : s.Untouched r := by
  unfold received at done
  split at done
  · cases done
    exact ⟨rfl, rfl, rfl, by simp⟩
  · split at done
    · cases done
      exact ⟨rfl, rfl, rfl, by simp [requestFailed]⟩
    · split at done
      · cases done
        exact untouched_go s _
      · split at done
        · cases done
          exact ⟨rfl, rfl, rfl, by simp [requestFailed]⟩
        · obtain ⟨rpVersion, -, done⟩ := bind_eq_ok done
          obtain ⟨answer, -, done⟩ := bind_eq_ok done
          cases done
          exact ⟨rfl, rfl, rfl, by simp⟩

theorem untouched_waited {wait : SessionWait} (done : s.waited o wait = .ok r) : s.Untouched r := by
  cases wait with
  | pin =>
      simp only [waited] at done
      split at done
      · cases done
        exact ⟨rfl, rfl, rfl, by simp⟩
      · split at done
        · cases done
          exact untouched_go s _
        · obtain ⟨_, -, done⟩ := bind_eq_ok done
          cases done
          exact untouched_go s _
  | settle =>
      cases done
      unfold startCtrl
      split
      · exact ⟨rfl, rfl, rfl, by simp⟩
      · exact untouched_go s _
  | switch =>
      simp only [waited] at done
      split at done
      · cases done
        exact untouched_go s _
      · cases done
        exact untouched_checkStop _ (untouched_go s _)
  | regist =>
      cases done
      exact untouched_go s _
  | ctrlStart | pinReply | holepunch =>
      cases done
      exact untouched_checkStop _ (untouched_go s _)

theorem untouched_streamDone {err : ErrorCode} (done : s.streamDone o err = .ok r) : s.Untouched r := by
  unfold streamDone at done
  split at done
  · obtain ⟨reason, -, done⟩ := bind_eq_ok done
    cases done
    exact ⟨rfl, rfl, rfl, by simp⟩
  · split at done
    · cases done
      exact ⟨rfl, rfl, rfl, by simp⟩
    · cases done
      exact ⟨rfl, rfl, rfl, by simp⟩

/-- Only where a PIN is handed to ctrl does the thread of the session touch one. -/
theorem untouched_runLocked (elsewhere : s.thread ≠ .forwarding) (done : s.runLocked cfg o = .ok r) :
    s.Untouched r := by
  unfold runLocked at done
  split at done
  case h_2 =>
    cases done
    exact untouched_begin
  case h_3 =>
    cases done
    split <;> exact ⟨rfl, rfl, rfl, by simp [go]⟩
  case h_4 =>
    cases done
    exact untouched_checkStop _ (untouched_go s _)
  case h_5 attempt _ =>
    cases done
    exact untouched_beginRequest attempt
  case h_6 attempt addrinfos _ =>
    cases done
    exact untouched_connectNext attempt addrinfos
  case h_7 attempt rest _ =>
    cases done
    exact untouched_connected attempt rest
  case h_8 => exact untouched_sendRequest done
  case h_9 => exact untouched_received done
  case h_10 =>
    cases done
    unfold requestDone
    repeat' split
    all_goals exact ⟨rfl, rfl, rfl, by simp [go]⟩
  case h_12 => exact untouched_waited done
  case h_13 =>
    cases done
    unfold pinLoop
    split <;> exact ⟨rfl, rfl, rfl, by simp [allocatedBuffer, freedBuffer, go]⟩
  case h_14 there => exact absurd there elsewhere
  case h_15 =>
    cases done
    unfold punchHole
    split <;> exact ⟨rfl, rfl, rfl, by simp [allocatedBuffer, freedBuffer, go]⟩
  case h_16 =>
    cases done
    unfold punched
    split <;> exact ⟨rfl, rfl, rfl, by simp [allocatedBuffer, freedBuffer, go]⟩
  case h_21 =>
    cases done
    unfold senkusha
    split <;> exact ⟨rfl, rfl, rfl, by simp [go]⟩
  case h_24 =>
    split at done
    · exact untouched_streamDone done
    · cases done
      exact untouched_idle s
  all_goals
    cases done
    exact ⟨rfl, rfl, rfl, by simp [go, ctrlHasFailed]⟩

theorem untouched_stepRun (elsewhere : s.thread ≠ .forwarding) (done : s.stepRun cfg o = .ok r) : s.Untouched r := by
  unfold stepRun at done
  split at done
  case h_1 =>
    cases done
    unfold fallback
    repeat' split
    all_goals exact untouched_go s _
  case h_4 =>
    cases done
    exact ⟨rfl, rfl, rfl, by simp [allocatedBuffer, freedBuffer]⟩
  case h_5 =>
    split at done
    · exact untouched_runLocked elsewhere done
    · cases done
      exact untouched_idle s
  all_goals
    split at done
    all_goals
      cases done
      exact ⟨rfl, rfl, rfl, by simp [go]⟩

theorem untouched_stepWake (timeout : Bool) : s.Untouched (s.stepWake timeout) := by
  unfold stepWake
  repeat' split
  all_goals exact ⟨rfl, rfl, rfl, by simp [go]⟩

theorem untouched_setCtrl (next : SessionCtrlThread) : s.Untouched (s.setCtrl next) :=
  ⟨rfl, rfl, rfl, by simp [setCtrl]⟩

theorem untouched_ctrlMessage (content : CtrlContent) : s.Untouched (s.ctrlMessage content) := by
  unfold ctrlMessage
  repeat' split
  all_goals exact ⟨rfl, rfl, rfl, by simp [share, setCtrl, allocatedBuffer, freedBuffer]⟩

theorem untouched_afterNotice (notice : CtrlNotice) (next : CtrlThen) :
    s.Untouched ((s.notice notice).afterNotice next) := by
  cases notice <;> cases next <;> exact ⟨rfl, rfl, rfl, by simp [afterNotice, failCtrl, share, setCtrl]⟩

theorem untouched_stream {op : StreamConnectionOp} (done : s.stepStream cfg op = .ok r) : s.Untouched r := by
  obtain ⟨inner, -, done⟩ := bind_eq_ok done
  cases done
  refine ⟨rfl, rfl, rfl, fun out told => ?_⟩
  obtain ⟨out', -, rfl⟩ := List.mem_map.mp told
  exact ⟨rfl, rfl⟩

end Untouched

/-! ## The account -/

section Account
variable {cfg : SessionConfig} {s : Session} {o : SessionOutcome} {r : Result}

def allocatedBuffers (outs : List SessionOut) : List Nat := outs.filterMap allocatedBuffer

def freedBuffers (outs : List SessionOut) : List Nat := outs.filterMap freedBuffer

/-- A step takes the numbers of new copies in order, and gives away what it does not keep. -/
structure Accounted (s : Session) (r : Result) : Prop where
  allocated : allocatedBuffers r.2 = List.range' s.buffers (r.1.buffers - s.buffers)
  grown : s.buffers ≤ r.1.buffers
  balanced : (copies r.1 ++ freedBuffers r.2).Perm (allocatedBuffers r.2 ++ copies s)

theorem Untouched.accounted (untouched : s.Untouched r) : s.Accounted r := by
  have allocated : allocatedBuffers r.2 = [] :=
    List.filterMap_eq_nil_iff.mpr fun out told => (untouched.silent out told).1
  have freed : freedBuffers r.2 = [] :=
    List.filterMap_eq_nil_iff.mpr fun out told => (untouched.silent out told).2
  have same : copies r.1 = copies s := by
    unfold copies
    rw [untouched.loginPin, untouched.ctrlPin]
  constructor
  · rw [allocated, untouched.buffers, Nat.sub_self]
    rfl
  · rw [untouched.buffers]
  · rw [allocated, freed, same, List.append_nil, List.nil_append]

theorem freedBuffers_freePin (pin : Option LoginPin) : freedBuffers (freePin pin) = pin.toList.map (·.buffer) := by
  cases pin <;> rfl

theorem allocatedBuffers_freePin (pin : Option LoginPin) : allocatedBuffers (freePin pin) = [] := by
  cases pin <;> rfl

/-- A PIN is freed where the flag says that there is one. -/
theorem freePin_entered {entered : Bool} {pin : Option LoginPin} (told : entered = pin.isSome) :
    (if entered then freePin pin else []) = freePin pin := by
  subst told
  cases pin <;> rfl

theorem setLoginPin_accounted (entered : s.loginPinEntered = s.loginPin.isSome) (pin : Bytes) :
    s.Accounted (s.setLoginPin pin) := by
  unfold setLoginPin
  rw [freePin_entered entered]
  constructor
  · show s.buffers :: allocatedBuffers (freePin s.loginPin) = List.range' s.buffers (s.buffers + 1 - s.buffers)
    rw [allocatedBuffers_freePin, Nat.add_sub_cancel_left]
    rfl
  · exact Nat.le_succ _
  · show ((s.buffers :: s.ctrl.loginPin.toList.map (·.buffer)) ++ freedBuffers (freePin s.loginPin)).Perm
      (s.buffers :: (allocatedBuffers (freePin s.loginPin) ++ copies s))
    rw [freedBuffers_freePin, allocatedBuffers_freePin, List.nil_append, copies, List.map_append, List.cons_append]
    exact List.Perm.cons _ List.perm_append_comm

theorem forward_accounted (ctrlEntered : s.ctrl.loginPinEntered = s.ctrl.loginPin.isSome)
    (done : s.forward o = .ok r) : s.Accounted r := by
  unfold forward at done
  obtain ⟨pin, -, done⟩ := bind_eq_ok done
  cases done
  unfold ctrlSetLoginPin
  cases o.mallocPin with
  | false =>
      constructor
      · show allocatedBuffers (freePin s.loginPin) = List.range' s.buffers (s.buffers - s.buffers)
        rw [allocatedBuffers_freePin, Nat.sub_self]
        rfl
      · exact le_refl _
      · show (s.ctrl.loginPin.toList.map (·.buffer) ++ freedBuffers (freePin s.loginPin)).Perm
          (allocatedBuffers (freePin s.loginPin) ++ copies s)
        rw [freedBuffers_freePin, allocatedBuffers_freePin, List.nil_append, copies, List.map_append]
        exact List.perm_append_comm
  | true =>
      have freed : freedBuffers (freePin s.ctrl.loginPin ++ freePin s.loginPin) =
          (s.ctrl.loginPin.toList ++ s.loginPin.toList).map (·.buffer) := by
        rw [freedBuffers, List.filterMap_append, List.map_append]
        exact congrArg₂ (· ++ ·) (freedBuffers_freePin _) (freedBuffers_freePin _)
      have allocated : allocatedBuffers (freePin s.ctrl.loginPin ++ freePin s.loginPin) = [] := by
        rw [allocatedBuffers, List.filterMap_append]
        exact congrArg₂ (· ++ ·) (allocatedBuffers_freePin _) (allocatedBuffers_freePin _)
      simp only [Bool.not_true, Bool.false_eq_true, if_false, freePin_entered ctrlEntered]
      constructor
      · show s.buffers :: allocatedBuffers (freePin s.ctrl.loginPin ++ freePin s.loginPin) =
          List.range' s.buffers (s.buffers + 1 - s.buffers)
        rw [allocated, Nat.add_sub_cancel_left]
        rfl
      · exact Nat.le_succ _
      · show ([s.buffers] ++ freedBuffers (freePin s.ctrl.loginPin ++ freePin s.loginPin)).Perm
          (s.buffers :: (allocatedBuffers (freePin s.ctrl.loginPin ++ freePin s.loginPin) ++ copies s))
        rw [freed, allocated, List.nil_append, copies, List.map_append, List.map_append, List.singleton_append]
        exact List.Perm.cons _ List.perm_append_comm

theorem ctrlCanceled_accounted (sent : Bool) : s.Accounted (s.ctrlCanceled sent) := by
  unfold ctrlCanceled
  split
  · cases given : s.ctrl.loginPin with
    | none =>
        refine Untouched.accounted ⟨rfl, ?_, rfl, by simp [freePin]⟩
        exact given.symm
    | some pin =>
        constructor
        · show ([] : List Nat) = List.range' s.buffers (s.buffers - s.buffers)
          rw [Nat.sub_self]
          rfl
        · exact le_refl _
        · show (copies _ ++ [pin.buffer]).Perm ([] ++ copies s)
          rw [copies, copies, given]
          simp
  · split
    · exact (untouched_setCtrl _).accounted
    · exact Untouched.accounted ⟨rfl, rfl, rfl, by simp⟩

theorem stepCtrl_accounted (op : SessionCtrlOp) : s.Accounted (s.stepCtrl op) := by
  unfold stepCtrl
  split
  case h_1 connect _ =>
    unfold enterCtrl
    repeat' split
    all_goals exact (untouched_setCtrl _).accounted
  case h_2 connect answered _ =>
    unfold ctrlConnected
    repeat' split
    all_goals exact Untouched.accounted ⟨rfl, rfl, rfl, by simp [failCtrl, share, setCtrl]⟩
  case h_3 content _ => exact (untouched_ctrlMessage content).accounted
  case h_4 => exact (untouched_setCtrl _).accounted
  case h_5 => exact (untouched_setCtrl _).accounted
  case h_6 result _ =>
    unfold ctrlSelected
    split
    case h_1 sent =>
      split
      · exact ctrlCanceled_accounted sent
      · exact (untouched_idle s).accounted
    all_goals
      repeat' split
      all_goals exact Untouched.accounted ⟨rfl, rfl, rfl, by simp [failCtrl, share, setCtrl]⟩
  case h_7 notice next _ =>
    split
    · exact (untouched_afterNotice notice next).accounted
    · exact (untouched_idle s).accounted
  case h_8 => exact (untouched_idle s).accounted

theorem step_accounted {h : SessionHistory} {op : SessionOp} (fits : s.Consistent h) (done : step cfg s op = .ok r) :
    s.Accounted r := by
  cases op with
  | run o =>
      by_cases there : s.thread = .forwarding
      · simp only [step, stepRun, there, runLocked] at done
        split at done
        · split at done
          · cases done
            exact (untouched_idle s).accounted
          · exact forward_accounted fits.ctrlEntered done
        · cases done
          exact (untouched_idle s).accounted
      · exact (untouched_stepRun there done).accounted
  | wake timeout =>
      cases done
      exact (untouched_stepWake timeout).accounted
  | ctrl op =>
      cases done
      exact stepCtrl_accounted op
  | regist success nickname registKey =>
      cases done
      refine Untouched.accounted ?_
      unfold stepRegist
      repeat' split
      all_goals exact ⟨rfl, rfl, rfl, by simp [allocatedBuffer, freedBuffer]⟩
  | registShare =>
      cases done
      refine Untouched.accounted ?_
      unfold stepRegistShare
      repeat' split
      all_goals exact ⟨rfl, rfl, rfl, by simp⟩
  | stream op =>
      simp only [step] at done
      split at done
      · exact (untouched_stream done).accounted
      · cases done
        exact (untouched_idle s).accounted
  | stop =>
      simp only [step] at done
      split at done
      all_goals
        cases done
        exact Untouched.accounted ⟨rfl, rfl, rfl, by simp⟩
  | stopStream =>
      simp only [step] at done
      split at done
      · have untouched := untouched_stream done
        exact Untouched.accounted ⟨untouched.loginPin, untouched.ctrlPin, untouched.buffers, untouched.silent⟩
      · cases done
        exact (untouched_idle s).accounted
  | stopSignal =>
      simp only [step] at done
      split at done
      · have untouched := untouched_stream done
        exact Untouched.accounted ⟨untouched.loginPin, untouched.ctrlPin, untouched.buffers, untouched.silent⟩
      · cases done
        exact (untouched_idle s).accounted
  | setLoginPin pin malloc =>
      cases done
      split
      · exact setLoginPin_accounted fits.entered pin
      · exact (untouched_idle s).accounted
  | setControllerState state => exact (untouched_stream done).accounted
  | ctrlNotified =>
      cases done
      exact Untouched.accounted ⟨rfl, rfl, rfl, by simp⟩

end Account

/-! ## Runs -/

section Runs
variable {cfg : SessionConfig} {registKey nonce : Bytes} {controllerState : ControllerState} {ops : List SessionOp}
  {s t : Session} {outs : List (List SessionOut)}

theorem allocatedBuffers_run {h : SessionHistory} (fits : s.Consistent h)
    (done : run (step cfg) s ops = .ok (t, outs)) :
    allocatedBuffers outs.flatten = List.range' s.buffers (t.buffers - s.buffers) ∧ s.buffers ≤ t.buffers := by
  induction ops generalizing s h outs with
  | nil =>
      cases done
      rw [Nat.sub_self]
      exact ⟨rfl, le_refl _⟩
  | cons op ops ih =>
      obtain ⟨s', out, outs', stepped, rest, rfl⟩ := run_cons_inv done
      have first := step_accounted fits stepped
      have grown : s.buffers ≤ s'.buffers := first.grown
      obtain ⟨later, more⟩ := ih (step_keeps fits stepped).2 rest
      refine ⟨?_, grown.trans more⟩
      have here : allocatedBuffers out = List.range' s.buffers (s'.buffers - s.buffers) := first.allocated
      have whole : allocatedBuffers (out ++ outs'.flatten) = allocatedBuffers out ++ allocatedBuffers outs'.flatten :=
        List.filterMap_append
      rw [List.flatten_cons, whole, here, later]
      -- the numbers of the first step end where those of the others begin
      have meet : s.buffers + (s'.buffers - s.buffers) = s'.buffers := Nat.add_sub_cancel' grown
      have join := @List.range'_append_1 s.buffers (s'.buffers - s.buffers) (t.buffers - s'.buffers)
      rw [meet] at join
      rw [join, ← Nat.sub_add_sub_cancel more grown, Nat.add_comm]

theorem step_accounts (cfg : SessionConfig) :
    Accounts (step cfg) copies allocatedBuffers freedBuffers (fun _ _ => []) (fun s => ∃ h, s.Consistent h) := by
  rintro s op s' out ⟨h, fits⟩ stepped
  refine ⟨⟨_, (step_keeps fits stepped).2⟩, ?_⟩
  rw [List.append_nil]
  exact (step_accounted fits stepped).balanced

/-- The thread of the session hands on only a PIN that is there. -/
theorem forward_ok {h : SessionHistory} (fits : s.Consistent h)
    (there : s.thread = .done .pin ∨ s.thread = .forwarding)
    (o : SessionOutcome) : ∃ r, step cfg s (.run o) = .ok r := by
  rcases there with there | there
  · simp only [step, stepRun, there]
    split
    · simp only [runLocked, there, waited]
      split
      · exact ⟨_, rfl⟩
      · split
        · exact ⟨_, rfl⟩
        · have ready := fits.ready there
          have entered : s.loginPinEntered = true := by simp_all [condition]
          rw [← fits.entered, entered]
          exact ⟨_, rfl⟩
    · exact ⟨_, rfl⟩
  · simp only [step, stepRun, there]
    split
    · simp only [runLocked, there]
      split
      · exact ⟨_, rfl⟩
      · obtain ⟨pin, has⟩ := Option.isSome_iff_exists.mp (fits.forwards there)
        rw [forward, has]
        exact ⟨_, rfl⟩
    · exact ⟨_, rfl⟩

/-- Whatever the threads do in between each other: the copies that are not freed yet are those that the session and
ctrl have, none is freed twice, and behind `chiaki_session_fini` each of them is freed. The assertion in front of
`chiaki_ctrl_set_login_pin` holds. -/
theorem pins_freed_once (done : run (step cfg) (init cfg registKey nonce controllerState) ops = .ok (s, outs)) :
    (allocatedBuffers outs.flatten).Nodup ∧
      (copies s ++ freedBuffers outs.flatten).Perm (allocatedBuffers outs.flatten) ∧
      (freedBuffers (outs.flatten ++ s.fini)).Perm (allocatedBuffers outs.flatten) ∧
      (s.thread = .done .pin ∨ s.thread = .forwarding → ∀ o, ∃ r, step cfg s (.run o) = .ok r) := by
  have start := init_consistent cfg registKey nonce controllerState
  have numbers := (allocatedBuffers_run start done).1
  have balance := (step_accounts cfg).run ⟨_, start⟩ ((along_true _ ops).mono fun _ _ _ => rfl) done
  have held : (copies s ++ freedBuffers outs.flatten).Perm (allocatedBuffers outs.flatten) := by
    have none : copies (init cfg registKey nonce controllerState) = [] := rfl
    rw [none, List.append_nil] at balance
    rw [freedBuffers, allocatedBuffers, List.filterMap_flatten, List.filterMap_flatten]
    exact balance
  refine ⟨?_, held, ?_, fun there o => forward_ok (run_keeps done).2 there o⟩
  · rw [numbers]
    exact List.nodup_range'
  · have last : freedBuffers (outs.flatten ++ s.fini) = freedBuffers outs.flatten ++ copies s := by
      rw [freedBuffers, List.filterMap_append, fini, List.filterMap_append, copies, List.map_append]
      exact congrArg₂ (· ++ ·) rfl (congrArg₂ (· ++ ·) (freedBuffers_freePin _) (freedBuffers_freePin _))
    rw [last]
    exact List.perm_append_comm.trans held

/-- A PIN is entered in place of another one. -/
def samplePins : List SessionOp := [.setLoginPin (text "1234") true, .setLoginPin (text "5678") true]

theorem pins_freed_once_replaced : ∃ outs s,
    run (step sampleConfig) (init sampleConfig [] [] .idle) samplePins = .ok (s, outs) ∧
    copies s = [1] ∧ freedBuffers outs.flatten = [0] ∧
    (freedBuffers (outs.flatten ++ s.fini)).Perm (allocatedBuffers outs.flatten) :=
  ⟨_, _, rfl, rfl, rfl, (@pins_freed_once sampleConfig [] [] .idle samplePins _ _ rfl).2.2.1⟩

end Runs

end Chiaki.Session
