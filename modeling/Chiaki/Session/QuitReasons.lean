import Chiaki.Session.Order

/-!
# Why a session has quit

Several threads write the reason that a session quits with, and one overwrites that of the other. What the reason
still tells at the end, however they interleave.
-/

namespace Chiaki
open Machine

/-- A session does not go on from there. -/
def SessionThread.leaves : SessionThread → Bool
  | requestDone _ err => err ≠ .success ∧ err ≠ .versionMismatch
  | ctrlStop | ctrlJoin | quitting | ended => true
  | _ => false

/-- The reasons that ctrl fails for, by what it does then. -/
def CtrlThen.Tells (next : CtrlThen) (reason : QuitReason) : Prop :=
  reason = .ctrlConnectFailed ∨ reason = .ctrlUnknown ∨ reason = .ctrlConnectionRefused ∧ next = .connectFailed

namespace Session
open SessionHistory

/-- What a reason tells. The first three may be left from a request that was made again. -/
def Grounds (s : Session) : QuitReason → Prop
  | .none | .sessionRequestConnectionRefused | .sessionRequestRpVersionMismatch =>
      s.ctrlFailed = false ∧ (s.thread = .streaming ∨ s.stream.runThread = .start)
  | .stopped => s.shouldStop = true ∧ s.thread.leaves = true
  | .sessionRequestUnknown | .sessionRequestRpInUse | .sessionRequestRpCrash =>
      s.ctrl.thread = .none ∧ s.thread.leaves = true
  | .ctrlUnknown => s.ctrl.thread ≠ .none
  | .ctrlConnectFailed => s.ctrlFailed = true
  | .ctrlConnectionRefused => s.ctrl.thread = .sharing (.failed .ctrlConnectFailed) .leave
  | .streamConnectionUnknown =>
      s.thread.leaves = true ∧
        ∃ err, s.stream.runThread = .returned err ∧ err ≠ .success ∧ err ≠ .canceled ∧ err ≠ .disconnected
  | .streamConnectionRemoteDisconnected =>
      s.thread.leaves = true ∧ s.stream.runThread = .returned .disconnected ∧
        ∃ reason, s.stream.remoteDisconnectReason = some reason ∧ reason ≠ text "Server shutting down"
  | .streamConnectionRemoteShutdown =>
      s.thread.leaves = true ∧ s.stream.runThread = .returned .disconnected ∧
        s.stream.remoteDisconnectReason = some (text "Server shutting down")
  | .psnRegistFailed => s.shouldStop = true ∧ s.thread.zone = .regist

structure Explained (s : Session) : Prop where
  reason : s.Grounds s.quitReason
  str : ∀ reason, s.quitReasonStr = some reason → s.thread.leaves = true ∧
    s.stream.runThread = .returned .disconnected ∧ s.stream.remoteDisconnectReason = some reason
  stop : s.stopPipe = true ∨ s.stopCall ≠ .none ∨ s.stream.shouldStop = true → s.shouldStop = true
  failed : s.ctrlFailed = true → s.ctrl.thread ≠ .none
  shares : ∀ reason next, s.ctrl.thread = .sharing (.failed reason) next → next.Tells reason

/-- What the thread of the session leaves alone. -/
structure Kept (s s' : Session) : Prop where
  shouldStop : s'.shouldStop = s.shouldStop
  stopPipe : s'.stopPipe = s.stopPipe
  stopCall : s'.stopCall = s.stopCall
  ctrlFailed : s'.ctrlFailed = s.ctrlFailed
  ctrl : s'.ctrl.thread = s.ctrl.thread
  stream : s'.stream = s.stream
  str : s'.quitReasonStr = s.quitReasonStr

/-- The thread of the session goes on, and its reason stays explained. -/
def Goes (s : Session) : Prop := s.Explained ∧ s.thread ≠ .ended

/-! ## The thread of the session -/

section Thread
variable {cfg : SessionConfig} {s s' : Session} {h : SessionHistory} {o : SessionOutcome} {r : Result}

theorem Explained.tell (why : s.Explained) (kept : s.Kept s') (reason : s'.Grounds s'.quitReason)
    (leaves : s.thread.leaves = true → s'.thread.leaves = true) (going : s'.thread ≠ .ended) : s'.Goes := by
  refine ⟨⟨reason, ?_, ?_, ?_, ?_⟩, going⟩
  · rw [kept.str, kept.stream]
    exact fun reason now => ⟨leaves (why.str reason now).1, (why.str reason now).2⟩
  · rw [kept.stopPipe, kept.stopCall, kept.stream, kept.shouldStop]
    exact why.stop
  · rw [kept.ctrlFailed, kept.ctrl]
    exact why.failed
  · rw [kept.ctrl]
    exact why.shares

/-- The reason stays what it is. -/
theorem Explained.move (why : s.Explained) (kept : s.Kept s') (same : s'.quitReason = s.quitReason)
    (there : s.thread ≠ .streaming) (leaves : s.thread.leaves = true → s'.thread.leaves = true)
    (regist : s.thread.zone = .regist → s'.thread.zone = .regist ∨ s.shouldStop = false)
    (going : s'.thread ≠ .ended) : s'.Goes := by
  refine why.tell kept ?_ leaves going
  have reason := why.reason
  rw [same]
  cases told : s.quitReason with
  | none | sessionRequestConnectionRefused | sessionRequestRpVersionMismatch =>
      rw [told] at reason
      exact ⟨kept.ctrlFailed.trans reason.1, .inr (by rw [kept.stream]; exact reason.2.resolve_left there)⟩
  | stopped =>
      rw [told] at reason
      exact ⟨kept.shouldStop.trans reason.1, leaves reason.2⟩
  | sessionRequestUnknown | sessionRequestRpInUse | sessionRequestRpCrash =>
      rw [told] at reason
      exact ⟨kept.ctrl.trans reason.1, leaves reason.2⟩
  | ctrlUnknown =>
      rw [told] at reason
      exact fun now => reason (kept.ctrl.symm.trans now)
  | ctrlConnectFailed =>
      rw [told] at reason
      exact kept.ctrlFailed.trans reason
  | ctrlConnectionRefused =>
      rw [told] at reason
      exact kept.ctrl.trans reason
  | streamConnectionUnknown | streamConnectionRemoteDisconnected | streamConnectionRemoteShutdown =>
      rw [told] at reason
      exact ⟨leaves reason.1, by rw [kept.stream]; exact reason.2⟩
  | psnRegistFailed =>
      rw [told] at reason
      rcases regist reason.2 with zone | goesOn
      · exact ⟨kept.shouldStop.trans reason.1, zone⟩
      · exact absurd (goesOn.symm.trans reason.1) Bool.false_ne_true

/-- From one point to another, where nothing is quitting yet. -/
theorem Explained.go (why : s.Explained) {p : SessionThread} (there : s.thread = p) (q : SessionThread)
    (plain : p ≠ .streaming ∧ p.leaves = false) (regist : p.zone = .regist → q.zone = .regist ∨ s.shouldStop = false)
    (going : q ≠ .ended) : (s.go q).1.Goes := by
  refine why.move ⟨rfl, rfl, rfl, rfl, rfl, rfl, rfl⟩ rfl ?_ ?_ ?_ going
  · rw [there]
    exact plain.1
  · rw [there, plain.2]
    exact fun now => by cases now
  · rw [there]
    exact regist

theorem Explained.stopped (why : s.Explained) (stop : s.shouldStop = true) {q : SessionThread}
    (leaves : q.leaves = true)
    (going : q ≠ .ended) : ({ s with quitReason := .stopped }.goto q).Goes :=
  why.tell ⟨rfl, rfl, rfl, rfl, rfl, rfl, rfl⟩ ⟨stop, leaves⟩ (fun _ => leaves) going

theorem checkStop_explained (why : s.Explained) {quit : SessionThread} (leaves : quit.leaves = true)
    (going : quit ≠ .ended) (next : s.shouldStop = false → r.1.Goes) : (s.checkStop quit r).1.Goes := by
  unfold checkStop
  split
  case isTrue stop => exact why.stopped stop leaves going
  case isFalse goesOn => exact next (by simpa using goesOn)

/-- Before ctrl is started. -/
theorem Explained.early (why : s.Explained) (fits : s.Consistent h)
    (zone : s.thread.zone = .regist ∨ s.thread.zone = .request) :
    s.ctrl.thread = .none ∧ s.ctrlFailed = false ∧ s.stream.runThread = .start := by
  have ctrl : s.ctrl.thread = .none := by
    have ctrl := fits.place.ctrl
    rcases zone with there | there <;> rw [there] at ctrl <;> exact ctrl
  have run : s.stream.runThread = .start := by
    have stream := fits.place.stream
    rcases zone with there | there <;> rw [there] at stream <;> exact stream
  refine ⟨ctrl, ?_, run⟩
  cases failed : s.ctrlFailed with
  | false => rfl
  | true => exact absurd ctrl (why.failed failed)

theorem begin_explained (why : s.Explained) (there : s.thread = .begun) :
    (s.begin cfg o).1.Goes := by
  refine checkStop_explained why rfl (by simp) fun goesOn => ?_
  split
  · refine why.move ⟨rfl, rfl, rfl, rfl, rfl, rfl, rfl⟩ rfl (by simp [there]) ?_ (fun _ => .inl rfl) (by simp [goto])
    rw [there]
    exact fun now => by cases now
  · exact why.go there _ ⟨by simp, rfl⟩ (fun _ => .inr goesOn) (by simp)

/-! ### Requests -/

/-- The reason of a request that fails. -/
theorem Explained.fails (why : s.Explained) (fits : s.Consistent h) (zone : s.thread.zone = .request)
    (kept : s.Kept s') (reason : s'.quitReason = .sessionRequestUnknown ∨ s'.quitReason = .sessionRequestRpInUse ∨
      s'.quitReason = .sessionRequestRpCrash) {attempt : Nat} {err : ErrorCode}
    (now : s'.thread = .requestDone attempt err) (wrong : err ≠ .success ∧ err ≠ .versionMismatch) : s'.Goes := by
  have early := why.early fits (.inr zone)
  have leaves : s'.thread.leaves = true := by simp [now, SessionThread.leaves, wrong]
  refine why.tell kept ?_ (fun _ => leaves) (by simp [now])
  rcases reason with told | told | told <;> rw [told] <;> exact ⟨kept.ctrl.trans early.1, leaves⟩

/-- A reason that a request may leave behind. -/
theorem Explained.leavesBehind (why : s.Explained) (fits : s.Consistent h) (zone : s.thread.zone = .request)
    (kept : s.Kept s') (reason : s'.quitReason = .none ∨ s'.quitReason = .sessionRequestConnectionRefused ∨
      s'.quitReason = .sessionRequestRpVersionMismatch) (plain : s.thread.leaves = false)
    (going : s'.thread ≠ .ended) : s'.Goes := by
  have early := why.early fits (.inr zone)
  refine why.tell kept ?_ (by simp [plain]) going
  have left : s'.ctrlFailed = false ∧ (s'.thread = .streaming ∨ s'.stream.runThread = .start) :=
    ⟨kept.ctrlFailed.trans early.2.1, .inr (by rw [kept.stream]; exact early.2.2)⟩
  rcases reason with told | told | told <;> rw [told] <;> exact left

theorem beginRequest_explained {attempt : Nat} (why : s.Explained) (there : s.thread = .request attempt) :
    (s.beginRequest cfg o attempt).1.Goes := by
  have goes (q : SessionThread) (going : q ≠ .ended) : (s.go q).1.Goes :=
    why.go there q ⟨by simp, rfl⟩ (fun now => by cases now) going
  unfold beginRequest
  repeat' split
  all_goals exact goes _ (by simp)

theorem connectNext_explained {attempt : Nat} {addrinfos : List AddressFamily} (why : s.Explained)
    (fits : s.Consistent h) (there : s.thread = .connectNext attempt addrinfos) :
    (s.connectNext o attempt addrinfos).1.Goes := by
  have zone : s.thread.zone = .request := by rw [there]; rfl
  have plain : s.thread.leaves = false := by rw [there]; rfl
  have regist (q : SessionThread) : s.thread.zone = .regist → q.zone = .regist ∨ s.shouldStop = false := by simp [zone]
  cases addrinfos with
  | nil =>
      by_cases none : s.quitReason = .none
      · refine why.fails fits zone ⟨rfl, rfl, rfl, rfl, rfl, rfl, rfl⟩ (.inl ?_) rfl (by simp)
        simp [goto, connectNext, QuitReason.orElse, none]
      · refine why.move ⟨rfl, rfl, rfl, rfl, rfl, rfl, rfl⟩ ?_ (by simp [there]) (by simp [plain]) (regist _)
          (by simp [goto, connectNext])
        simp [goto, connectNext, QuitReason.orElse, none]
  | cons ai rest =>
      simp only [connectNext]
      split
      · exact why.go there _ ⟨by simp, rfl⟩ (fun now => by cases now) (by simp)
      · split
        all_goals
          exact why.move ⟨rfl, rfl, rfl, rfl, rfl, rfl, rfl⟩ rfl (by simp [there]) (by simp [plain]) (regist _)
            (by simp [Session.go, goto])

theorem connected_explained {attempt : Nat} {rest : List AddressFamily} (why : s.Explained) (fits : s.Consistent h)
    (there : s.thread = .connecting attempt rest) : (s.connected o attempt rest).1.Goes := by
  have zone : s.thread.zone = .request := by rw [there]; rfl
  have plain : s.thread.leaves = false := by rw [there]; rfl
  unfold connected
  split
  case isTrue stopped =>
    have stop := why.stop (.inl (Bool.and_eq_true_iff.mp stopped).1)
    exact why.stopped stop rfl (by simp)
  case isFalse =>
    split
    · exact why.leavesBehind fits zone ⟨rfl, rfl, rfl, rfl, rfl, rfl, rfl⟩ (.inr (.inl rfl)) plain (by simp [goto])
    · split
      · exact why.leavesBehind fits zone ⟨rfl, rfl, rfl, rfl, rfl, rfl, rfl⟩ (.inl rfl) plain (by simp [goto])
      · exact why.go there _ ⟨by simp, rfl⟩ (fun now => by cases now) (by simp)

theorem sendRequest_explained {attempt : Nat} (why : s.Explained) (fits : s.Consistent h)
    (there : s.thread = .send attempt) (done : s.sendRequest cfg o attempt = .ok r) : r.1.Goes := by
  have zone : s.thread.zone = .request := by rw [there]; rfl
  unfold sendRequest at done
  dsimp only at done
  generalize hostname : (if cfg.holepunchSession then { s with hostname := o.holepunchAddr } else s) = s' at done
  have named : ∃ name, s' = { s with hostname := name } := by
    subst hostname
    split
    · exact ⟨_, rfl⟩
    · exact ⟨_, rfl⟩
  obtain ⟨name, rfl⟩ := named
  obtain ⟨written, request, done⟩ := bind_eq_ok done
  cases written with
  | error err =>
      cases done
      exact why.fails fits zone ⟨rfl, rfl, rfl, rfl, rfl, rfl, rfl⟩ (.inl rfl) rfl (sessionRequest_error request)
  | ok request' =>
      dsimp only at done
      split at done
      · cases done
        exact why.fails fits zone ⟨rfl, rfl, rfl, rfl, rfl, rfl, rfl⟩ (.inl rfl) rfl (by simp)
      · cases done
        refine why.move ⟨rfl, rfl, rfl, rfl, rfl, rfl, rfl⟩ rfl (by simp [there]) ?_ ?_ (by simp [goto])
        · rw [there]
          exact fun now => by cases now
        · rw [zone]
          exact fun now => by cases now

/-- The reasons that come with an answer of the console. -/
theorem answered_explained {answer : SessionAnswer} {attempt : Nat} {serverTarget : Target} {nonce : Bytes}
    (why : s.Explained) (fits : s.Consistent h) (there : s.thread = .receiving attempt) (sound : answer.Sound) :
    ({ s with
      quitReason := answer.quitReason.getD s.quitReason
      serverTarget := serverTarget
      nonce := nonce }.goto (.requestDone attempt answer.err)).Goes := by
  have zone : s.thread.zone = .request := by rw [there]; rfl
  have plain : s.thread.leaves = false := by rw [there]; rfl
  have stays (reason : answer.quitReason = Option.none) :
      ({ s with
        quitReason := answer.quitReason.getD s.quitReason
        serverTarget := serverTarget
        nonce := nonce }.goto (.requestDone attempt answer.err)).Goes := by
    refine why.move ⟨rfl, rfl, rfl, rfl, rfl, rfl, rfl⟩ ?_ (by simp [there]) (by simp [plain]) (by simp [zone])
      (by simp [goto])
    simp [goto, reason]
  cases sound with
  | accepted err reason target => exact stays reason
  | renegotiated target err reason told known => exact stays reason
  | mismatched err reason told =>
      refine why.leavesBehind fits zone ⟨rfl, rfl, rfl, rfl, rfl, rfl, rfl⟩ (.inr (.inr ?_)) plain (by simp [goto])
      simp [goto, reason]
  | refused reason err told target request =>
      have now : (answer.quitReason.getD s.quitReason) = reason := by rw [told]; rfl
      refine why.fails fits zone ⟨rfl, rfl, rfl, rfl, rfl, rfl, rfl⟩ ?_ rfl (by simp [err])
      rw [← now] at request
      exact request

theorem received_explained {attempt : Nat} (why : s.Explained) (fits : s.Consistent h)
    (there : s.thread = .receiving attempt) (done : s.received cfg o attempt = .ok r) : r.1.Goes := by
  have zone : s.thread.zone = .request := by rw [there]; rfl
  have fails : (s.requestFailed attempt .network).1.Goes :=
    why.fails fits zone ⟨rfl, rfl, rfl, rfl, rfl, rfl, rfl⟩ (.inl rfl) rfl (by simp)
  unfold received at done
  split at done
  case isTrue stopped =>
    cases done
    have pipe : s.stopPipe = true := by
      simp only [Bool.and_eq_true] at stopped
      exact stopped.1.2
    exact why.stopped (why.stop (.inl pipe)) rfl (by simp)
  case isFalse =>
    split at done
    · cases done
      exact fails
    · split at done
      · cases done
        exact why.go there _ ⟨by simp, rfl⟩ (fun now => by cases now) (by simp)
      · split at done
        · cases done
          exact fails
        · obtain ⟨rpVersion, -, done⟩ := bind_eq_ok done
          obtain ⟨answer, answered, done⟩ := bind_eq_ok done
          cases done
          exact answered_explained why fits there (sessionAnswer_sound answered)

theorem requestDone_explained {attempt : Nat} {err : ErrorCode} (why : s.Explained)
    (there : s.thread = .requestDone attempt err) : (s.requestDone attempt err).1.Goes := by
  have elsewhere : s.thread ≠ .streaming := by simp [there]
  have zone : s.thread.zone ≠ .regist := by rw [there]; simp [SessionThread.zone]
  unfold requestDone
  split
  case isTrue again =>
    refine why.move ⟨rfl, rfl, rfl, rfl, rfl, rfl, rfl⟩ rfl elsewhere ?_ (fun now => absurd now zone) (by simp [goto])
    rw [there]
    simp [SessionThread.leaves, again]
  case isFalse =>
    split
    · exact why.move ⟨rfl, rfl, rfl, rfl, rfl, rfl, rfl⟩ rfl elsewhere (fun _ => rfl) (fun now => absurd now zone)
        (by simp [Session.go, goto])
    case isFalse accepted =>
      refine why.move ⟨rfl, rfl, rfl, rfl, rfl, rfl, rfl⟩ rfl elsewhere ?_ (fun now => absurd now zone)
        (by simp [Session.go, goto])
      rw [there]
      simp only [ne_eq, not_not] at accepted
      simp [SessionThread.leaves, accepted]

/-! ### Behind the requests -/

theorem startCtrl_explained (why : s.Explained) (fits : s.Consistent h) (there : s.thread = .done .settle) :
    (s.startCtrl o).1.Goes := by
  have early := why.early fits (.inr (by rw [there]; rfl))
  unfold startCtrl
  split
  · refine ⟨⟨?_, ?_, why.stop, (fun _ now => by cases now), fun reason next now => by cases now⟩, by simp [goto]⟩
    · have reason := why.reason
      cases told : s.quitReason with
      | none | sessionRequestConnectionRefused | sessionRequestRpVersionMismatch =>
          simp only [told, Grounds] at reason
          simp [Grounds, goto, reason.1, early.2.2]
      | stopped | sessionRequestUnknown | sessionRequestRpInUse | sessionRequestRpCrash | streamConnectionUnknown
      | streamConnectionRemoteDisconnected | streamConnectionRemoteShutdown | psnRegistFailed =>
          simp [told, Grounds, there, SessionThread.leaves, SessionThread.zone, SessionWait.zone] at reason
      | ctrlUnknown | ctrlConnectFailed | ctrlConnectionRefused => simp [told, Grounds, early] at reason
    · intro reason now
      have leaves := (why.str reason now).1
      rw [there] at leaves
      cases leaves
  · exact why.go there _ ⟨by simp, rfl⟩ (fun now => by cases now) (by simp)

theorem waited_explained {wait : SessionWait} (why : s.Explained) (fits : s.Consistent h)
    (there : s.thread = .done wait) (done : s.waited o wait = .ok r) : r.1.Goes := by
  have goes (q : SessionThread) (late : wait ≠ .regist) (going : q ≠ .ended) : (s.go q).1.Goes := by
    refine why.go there q ⟨by simp, rfl⟩ (fun now => ?_) going
    cases wait <;> first | exact absurd rfl late | cases now
  cases wait with
  | regist =>
      cases done
      exact why.go there _ ⟨by simp, rfl⟩ (fun _ => .inl rfl) (by simp)
  | settle =>
      cases done
      exact startCtrl_explained why fits there
  | ctrlStart =>
      cases done
      refine checkStop_explained why rfl (by simp) fun _ => goes _ (by simp) ?_
      split <;> simp
  | pinReply | holepunch =>
      cases done
      exact checkStop_explained why rfl (by simp) fun _ => goes _ (by simp) (by simp)
  | pin =>
      simp only [waited] at done
      split at done
      case isTrue stop =>
        cases done
        exact why.stopped stop rfl (by simp)
      case isFalse =>
        split at done
        · cases done
          exact goes _ (by simp) (by simp)
        · obtain ⟨_, -, done⟩ := bind_eq_ok done
          cases done
          exact goes _ (by simp) (by simp)
  | switch =>
      simp only [waited] at done
      split at done
      · cases done
        exact goes _ (by simp) (by simp)
      · cases done
        exact checkStop_explained why rfl (by simp) fun _ => goes _ (by simp) (by simp)

/-- The thread has started ctrl. -/
theorem Consistent.started (fits : s.Consistent h) (zone : s.thread.zone = .ctrl) : s.ctrl.thread ≠ .none := by
  have ctrl := fits.place.ctrl
  rw [zone] at ctrl
  exact ctrl

theorem ctrlHasFailed_explained (why : s.Explained) (fits : s.Consistent h) (there : s.thread = .ctrlFailed) :
    s.ctrlHasFailed.1.Goes := by
  have started := fits.started (by rw [there]; rfl)
  by_cases none : s.quitReason = .none
  · refine why.tell ⟨rfl, rfl, rfl, rfl, rfl, rfl, rfl⟩ ?_ (fun _ => rfl) (by simp [ctrlHasFailed, goto])
    rw [show s.ctrlHasFailed.1.quitReason = .ctrlUnknown by simp [ctrlHasFailed, goto, QuitReason.orElse, none]]
    exact started
  · refine why.move ⟨rfl, rfl, rfl, rfl, rfl, rfl, rfl⟩ ?_ (by simp [there]) (fun _ => rfl)
      (by simp [there, SessionThread.zone]) (by simp [ctrlHasFailed, goto])
    simp [ctrlHasFailed, goto, QuitReason.orElse, none]

theorem streamDone_explained {err : ErrorCode} (why : s.Explained) (fits : s.Consistent h)
    (returned : s.stream.runThread = .returned err) (done : s.streamDone o err = .ok r) : r.1.Goes := by
  have told (reason : Bytes) (now : s.quitReasonStr = some reason) : SessionThread.leaves .ctrlStop = true ∧
      s.stream.runThread = .returned .disconnected ∧ s.stream.remoteDisconnectReason = some reason :=
    ⟨rfl, (why.str reason now).2⟩
  unfold streamDone at done
  split at done
  case isTrue disconnected =>
    subst disconnected
    obtain ⟨reason, given, done⟩ := bind_eq_ok done
    cases done
    have given : s.stream.remoteDisconnectReason = some reason := by
      cases has : s.stream.remoteDisconnectReason with
      | none =>
          rw [has] at given
          cases given
      | some reason' =>
          rw [has] at given
          cases given
          rfl
    refine ⟨⟨?_, ?_, why.stop, why.failed, why.shares⟩, by simp [goto]⟩
    · show Grounds _ (if reason = text "Server shutting down" then _ else _)
      split
      case isTrue shutdown => exact ⟨rfl, returned, given.trans (congrArg some shutdown)⟩
      case isFalse other => exact ⟨rfl, returned, reason, given, other⟩
    · intro copied now
      refine ⟨rfl, returned, given.trans ?_⟩
      have now : (if o.strdup = true then some reason else none) = some copied := now
      split at now
      · exact now
      · cases now
  case isFalse connected =>
    split at done
    case isTrue failed =>
      cases done
      exact ⟨⟨⟨rfl, err, returned, failed.1, failed.2, connected⟩, told, why.stop, why.failed, why.shares⟩,
        by simp [goto]⟩
    case isFalse stopped =>
      cases done
      have place := fits.stream.place
      rw [returned] at place
      have stop : s.stream.shouldStop = true := by
        cases place.2.2.1 with
        | stopped early congestion stop result => exact stop
        | failed early congestion result own => exact absurd ⟨result, own.1⟩ stopped
        | disconnected told congestion result canceled remote established =>
            by_contra goesOn
            exact stopped ⟨result, fun now => goesOn (canceled now)⟩
      exact ⟨⟨⟨why.stop (.inr (.inr stop)), rfl⟩, told, why.stop, why.failed, why.shares⟩, by simp [goto]⟩

theorem runLocked_explained (why : s.Explained) (fits : s.Consistent h) (going : s.thread ≠ .ended)
    (done : s.runLocked cfg o = .ok r) : r.1.Goes := by
  unfold runLocked at done
  split at done
  case h_1 there =>
    cases done
    exact why.go there _ ⟨by simp, rfl⟩ (fun _ => .inl rfl) (by simp)
  case h_2 there =>
    cases done
    exact begin_explained why there
  case h_3 there =>
    cases done
    split
    · exact why.go there _ ⟨by simp, rfl⟩ (fun _ => .inl rfl) (by simp)
    · exact ⟨why, going⟩
  case h_4 there =>
    cases done
    exact checkStop_explained why rfl (by simp) fun goesOn =>
      why.go there _ ⟨by simp, rfl⟩ (fun _ => .inr goesOn) (by simp)
  case h_5 attempt there =>
    cases done
    exact beginRequest_explained why there
  case h_6 attempt addrinfos there =>
    cases done
    exact connectNext_explained why fits there
  case h_7 attempt rest there =>
    cases done
    exact connected_explained why fits there
  case h_8 attempt there => exact sendRequest_explained why fits there done
  case h_9 attempt there => exact received_explained why fits there done
  case h_10 attempt err there =>
    cases done
    exact requestDone_explained why there
  case h_11 wait there =>
    cases done
    refine why.go there _ ⟨by simp, rfl⟩ (fun zone => .inl ?_) (by split <;> simp)
    split <;> exact zone
  case h_12 wait there => exact waited_explained why fits there done
  case h_13 there =>
    cases done
    unfold pinLoop
    split
    · exact why.move ⟨rfl, rfl, rfl, rfl, rfl, rfl, rfl⟩ rfl (by simp [there]) (by simp [there, SessionThread.leaves])
        (by simp [there, SessionThread.zone]) (by simp [goto])
    · exact why.go there _ ⟨by simp, rfl⟩ (fun now => by cases now) (by simp)
  case h_14 there =>
    split at done
    · cases done
      exact ⟨why, going⟩
    · unfold forward at done
      obtain ⟨pin, -, done⟩ := bind_eq_ok done
      cases done
      unfold ctrlSetLoginPin
      refine why.move ?_ ?_ (by simp [there]) (by simp [there, SessionThread.leaves])
        (by simp [there, SessionThread.zone]) (by simp [goto])
      · split <;> exact ⟨rfl, rfl, rfl, rfl, rfl, rfl, rfl⟩
      · split <;> rfl
  case h_15 there =>
    cases done
    unfold punchHole
    split <;> exact why.go there _ ⟨by simp, rfl⟩ (fun now => by cases now) (by simp)
  case h_16 there =>
    cases done
    unfold punched
    split <;> exact why.go there _ ⟨by simp, rfl⟩ (fun now => by cases now) (by simp)
  case h_17 there =>
    cases done
    exact why.go there _ ⟨by simp, rfl⟩ (fun now => by cases now) (by split <;> simp)
  case h_18 there =>
    cases done
    exact why.move ⟨rfl, rfl, rfl, rfl, rfl, rfl, rfl⟩ rfl (by simp [there]) (by simp [there, SessionThread.leaves])
      (by simp [there, SessionThread.zone]) (by simp [Session.go, goto])
  case h_19 err there =>
    cases done
    exact why.go there _ ⟨by simp, rfl⟩ (fun now => by cases now) (by split <;> simp)
  case h_20 there =>
    cases done
    exact ctrlHasFailed_explained why fits there
  case h_21 there =>
    cases done
    unfold senkusha
    split
    · exact why.go there _ ⟨by simp, rfl⟩ (fun now => by cases now) (by simp)
    · exact why.move ⟨rfl, rfl, rfl, rfl, rfl, rfl, rfl⟩ rfl (by simp [there]) (by simp [there, SessionThread.leaves])
        (by simp [there, SessionThread.zone]) (by simp only [goto]; split <;> simp)
  case h_22 there =>
    cases done
    exact why.go there _ ⟨by simp, rfl⟩ (fun now => by cases now) (by split <;> simp)
  case h_23 there =>
    cases done
    exact why.go there _ ⟨by simp, rfl⟩ (fun now => by cases now) (by split <;> simp)
  case h_24 there =>
    split at done
    case h_1 err returned => exact streamDone_explained why fits returned done
    · cases done
      exact ⟨why, going⟩
  all_goals
    cases done
    exact ⟨why, going⟩

/-- Only where it reports that it has quit does the thread end. -/
theorem stepRun_explained (why : s.Explained) (fits : s.Consistent h) (done : s.stepRun cfg o = .ok r) :
    r.1.Explained ∧ (r.1.thread = .ended →
      s.thread = .ended ∨ r = (s.goto .ended, [.event (.quit s.quitReason s.quitReasonStr)])) := by
  have goes (step : r.1.Goes) : r.1.Explained ∧ (r.1.thread = .ended →
      s.thread = .ended ∨ r = (s.goto .ended, [.event (.quit s.quitReason s.quitReasonStr)])) :=
    ⟨step.1, fun now => absurd now step.2⟩
  unfold stepRun at done
  split at done
  case h_1 there =>
    cases done
    refine goes ?_
    unfold fallback
    repeat' split
    all_goals exact why.go there _ ⟨by simp, rfl⟩ (fun now => by cases now) (by simp)
  case h_2 there =>
    split at done
    · cases done
      exact goes ⟨why, by simp [there]⟩
    · cases done
      exact goes (why.move ⟨rfl, rfl, rfl, rfl, rfl, rfl, rfl⟩ rfl (by simp [there]) (fun _ => rfl)
        (by simp [there, SessionThread.zone]) (by simp [Session.go, goto]))
  case h_3 there =>
    split at done
    · cases done
      exact goes (why.move ⟨rfl, rfl, rfl, rfl, rfl, rfl, rfl⟩ rfl (by simp [there]) (fun _ => rfl)
        (by simp [there, SessionThread.zone]) (by simp [Session.go, goto]))
    · cases done
      exact goes ⟨why, by simp [there]⟩
  case h_4 there =>
    cases done
    have quits : (s.goto .quitting).Goes := why.move ⟨rfl, rfl, rfl, rfl, rfl, rfl, rfl⟩ rfl (by simp [there])
      (fun _ => rfl) (by simp [there, SessionThread.zone]) (by simp [goto])
    refine ⟨?_, fun _ => .inr rfl⟩
    -- the two points at the end are alike
    have alike : (s.goto .ended).Grounds = (s.goto .quitting).Grounds := by
      funext reason
      cases reason <;> simp [Grounds, goto, SessionThread.leaves, SessionThread.zone]
    exact ⟨by rw [alike]; exact quits.1.reason, fun reason now => ⟨rfl, (why.str reason now).2⟩, why.stop, why.failed,
      why.shares⟩
  case h_5 =>
    split at done
    · by_cases ended : s.thread = .ended
      · rw [runLocked, ended] at done
        cases done
        exact ⟨why, fun _ => .inl ended⟩
      · exact goes (runLocked_explained why fits ended done)
    · cases done
      exact ⟨why, fun now => .inl now⟩

theorem stepWake_explained (why : s.Explained) (timeout : Bool) :
    (s.stepWake timeout).1.Explained ∧ ((s.stepWake timeout).1.thread = .ended → s.thread = .ended) := by
  unfold stepWake
  split
  case h_1 wait there =>
    have goes (q : SessionThread) (zone : q.zone = wait.zone) (going : q ≠ .ended) : (s.go q).1.Goes :=
      why.go there q ⟨by simp, rfl⟩ (fun now => .inl (zone.trans now)) going
    split
    · exact ⟨why, id⟩
    · split
      · exact ⟨(goes _ rfl (by simp)).1, fun now => by cases now⟩
      · exact ⟨(goes _ rfl (by simp)).1, fun now => by cases now⟩
  case h_2 => exact ⟨why, id⟩

end Thread

/-! ## The other threads -/

section Others
variable {cfg : SessionConfig} {s s' : Session} {h : SessionHistory}

/-- What the ctrl thread leaves alone when it has nothing to say. -/
structure Steered (s s' : Session) : Prop where
  thread : s'.thread = s.thread
  reason : s'.quitReason = s.quitReason
  shouldStop : s'.shouldStop = s.shouldStop
  stopPipe : s'.stopPipe = s.stopPipe
  stopCall : s'.stopCall = s.stopCall
  ctrlFailed : s'.ctrlFailed = s.ctrlFailed
  stream : s'.stream = s.stream
  str : s'.quitReasonStr = s.quitReasonStr

theorem Explained.control (why : s.Explained) (steered : s.Steered s') (runs : s.ctrl.thread ≠ .none)
    (plain : ∀ next, s.ctrl.thread ≠ .sharing (.failed .ctrlConnectFailed) next) (started : s'.ctrl.thread ≠ .none)
    (shares : ∀ reason next, s'.ctrl.thread = .sharing (.failed reason) next → next.Tells reason) :
    s'.Explained := by
  refine ⟨?_, ?_, ?_, fun _ => started, shares⟩
  · have reason := why.reason
    rw [steered.reason]
    cases told : s.quitReason with
    | none | sessionRequestConnectionRefused | sessionRequestRpVersionMismatch =>
        rw [told] at reason
        exact ⟨steered.ctrlFailed.trans reason.1, by rw [steered.thread, steered.stream]; exact reason.2⟩
    | stopped =>
        rw [told] at reason
        exact ⟨steered.shouldStop.trans reason.1, by rw [steered.thread]; exact reason.2⟩
    | sessionRequestUnknown | sessionRequestRpInUse | sessionRequestRpCrash =>
        rw [told] at reason
        exact absurd reason.1 runs
    | ctrlUnknown => exact started
    | ctrlConnectFailed =>
        rw [told] at reason
        exact steered.ctrlFailed.trans reason
    | ctrlConnectionRefused =>
        rw [told] at reason
        exact absurd reason (plain _)
    | streamConnectionUnknown | streamConnectionRemoteDisconnected | streamConnectionRemoteShutdown =>
        rw [told] at reason
        exact ⟨by rw [steered.thread]; exact reason.1, by rw [steered.stream]; exact reason.2⟩
    | psnRegistFailed =>
        rw [told] at reason
        exact ⟨steered.shouldStop.trans reason.1, by rw [steered.thread]; exact reason.2⟩
  · rw [steered.str, steered.thread, steered.stream]
    exact why.str
  · rw [steered.stopPipe, steered.stopCall, steered.stream, steered.shouldStop]
    exact why.stop

/-- The ctrl thread has written that it has failed. -/
theorem failed_explained (why : s.Explained) {reason : QuitReason} {next : CtrlThen} (follows : next.Tells reason) :
    ((s.notice (.failed reason)).afterNotice next).1.Explained := by
  have started : ((s.notice (.failed reason)).afterNotice next).1.ctrl.thread ≠ .none := by
    cases next <;> simp [afterNotice, setCtrl, failCtrl, share]
  have shares : ∀ reason' next', ((s.notice (.failed reason)).afterNotice next).1.ctrl.thread =
      .sharing (.failed reason') next' → next'.Tells reason' := by
    intro reason' next' now
    cases next with
    | connectFailed =>
        cases now
        exact .inl rfl
    | goOn | leave => cases now
  have told : ((s.notice (.failed reason)).afterNotice next).1.Grounds reason := by
    rcases follows with rfl | rfl | ⟨rfl, rfl⟩
    · cases next <;> rfl
    · exact started
    · rfl
  cases next <;> exact ⟨told, why.str, why.stop, fun _ => started, shares⟩

theorem stepCtrl_explained (why : s.Explained) (op : SessionCtrlOp) :
    (s.stepCtrl op).1.Explained ∧ (s.stepCtrl op).1.thread = s.thread := by
  have goes {t : Session} (steered : s.Steered t) (runs : s.ctrl.thread ≠ .none)
      (plain : ∀ next, s.ctrl.thread ≠ .sharing (.failed .ctrlConnectFailed) next) (started : t.ctrl.thread ≠ .none)
      (shares : ∀ reason next, t.ctrl.thread = .sharing (.failed reason) next → next.Tells reason) :
      t.Explained ∧ t.thread = s.thread := ⟨why.control steered runs plain started shares, steered.thread⟩
  unfold stepCtrl
  split
  case h_1 connect there =>
    unfold enterCtrl
    repeat' split
    all_goals
      exact goes ⟨rfl, rfl, rfl, rfl, rfl, rfl, rfl, rfl⟩ (by simp [there]) (by simp [there])
        (by simp [failCtrl, share, setCtrl]) (by simp [failCtrl, share, setCtrl, CtrlThen.Tells])
  case h_2 connect answered there =>
    unfold ctrlConnected
    repeat' split
    all_goals
      first
        | exact ⟨why, rfl⟩
        | exact goes ⟨rfl, rfl, rfl, rfl, rfl, rfl, rfl, rfl⟩ (by simp [there]) (by simp [there])
            (by simp [failCtrl, share, setCtrl]) (by simp [failCtrl, share, setCtrl, CtrlThen.Tells])
  case h_3 content there =>
    unfold ctrlMessage
    repeat' split
    all_goals
      first
        | exact ⟨why, rfl⟩
        | exact goes ⟨rfl, rfl, rfl, rfl, rfl, rfl, rfl, rfl⟩ (by simp [there]) (by simp [there])
            (by simp [share, setCtrl, there]) (by simp [share, setCtrl, there])
  case h_4 there =>
    exact goes ⟨rfl, rfl, rfl, rfl, rfl, rfl, rfl, rfl⟩ (by simp [there]) (by simp [there])
      (by simp [failCtrl, share, setCtrl]) (by simp [failCtrl, share, setCtrl, CtrlThen.Tells])
  case h_5 there =>
    exact goes ⟨rfl, rfl, rfl, rfl, rfl, rfl, rfl, rfl⟩ (by simp [there]) (by simp [there])
      (by simp [setCtrl]) (by simp [setCtrl])
  case h_6 result there =>
    unfold ctrlSelected ctrlCanceled
    repeat' split
    all_goals
      first
        | exact ⟨why, rfl⟩
        | exact goes ⟨rfl, rfl, rfl, rfl, rfl, rfl, rfl, rfl⟩ (by simp [there]) (by simp [there])
            (by simp [failCtrl, share, setCtrl]) (by simp [failCtrl, share, setCtrl, CtrlThen.Tells])
  case h_7 notice next there =>
    split
    · have runs : s.ctrl.thread ≠ .none := by simp [there]
      cases notice with
      | failed reason => exact ⟨failed_explained why (why.shares reason next there), by cases next <;> rfl⟩
      | sessionId | loginPinRequest | switchReceived =>
          cases next <;>
            exact goes ⟨rfl, rfl, rfl, rfl, rfl, rfl, rfl, rfl⟩ runs (by simp [there])
              (by simp [afterNotice, failCtrl, share, setCtrl])
              (by simp [afterNotice, failCtrl, share, setCtrl, CtrlThen.Tells])
    · exact ⟨why, rfl⟩
  case h_8 => exact ⟨why, rfl⟩

theorem stepRegistShare_explained (why : s.Explained) (fits : s.Consistent h) :
    s.stepRegistShare.1.Explained ∧ s.stepRegistShare.1.thread = s.thread := by
  unfold stepRegistShare
  split
  case h_1 success there =>
    split
    · split
      · exact ⟨⟨why.reason, why.str, why.stop, why.failed, why.shares⟩, rfl⟩
      · have zone : s.thread.zone = .regist := by
          have begun : s.registThread ≠ .none ∧ s.registThread ≠ .ended := by simp [there]
          rcases registers_of_begun fits.place.regist begun with at_ | at_ | at_ | at_ <;> rw [at_] <;> rfl
        exact ⟨⟨⟨rfl, zone⟩, why.str, fun _ => rfl, why.failed, why.shares⟩, rfl⟩
    · exact ⟨why, rfl⟩
  case h_2 => exact ⟨why, rfl⟩

/-- A step beside those of the session and of ctrl. -/
theorem Explained.beside {thread : SessionRegistThread} {stop pipe : Bool} {call : StopCall} {stream : StreamConnection}
    (why : s.Explained) (told : s.shouldStop = true → stop = true)
    (asked : pipe = true ∨ call ≠ .none ∨ stream.shouldStop = true → stop = true)
    (run : s.thread = .streaming ∨
      stream.runThread = s.stream.runThread ∧ stream.remoteDisconnectReason = s.stream.remoteDisconnectReason) :
    { s with
        registThread := thread, shouldStop := stop, stopPipe := pipe, stopCall := call
        stream := stream }.Explained := by
  have stays (leaves : s.thread.leaves = true) :
      stream.runThread = s.stream.runThread ∧ stream.remoteDisconnectReason = s.stream.remoteDisconnectReason := by
    refine run.resolve_left fun there => ?_
    rw [there] at leaves
    cases leaves
  refine ⟨?_, ?_, asked, why.failed, why.shares⟩
  · have reason := why.reason
    show Grounds _ s.quitReason
    cases given : s.quitReason with
    | none | sessionRequestConnectionRefused | sessionRequestRpVersionMismatch =>
        rw [given] at reason
        refine ⟨reason.1, ?_⟩
        rcases run with there | same
        · exact .inl there
        · exact reason.2.imp id same.1.trans
    | stopped =>
        rw [given] at reason
        exact ⟨told reason.1, reason.2⟩
    | sessionRequestUnknown | sessionRequestRpInUse | sessionRequestRpCrash | ctrlUnknown | ctrlConnectFailed
    | ctrlConnectionRefused =>
        rw [given] at reason
        exact reason
    | streamConnectionUnknown =>
        rw [given] at reason
        exact ⟨reason.1, by rw [(stays reason.1).1]; exact reason.2⟩
    | streamConnectionRemoteDisconnected | streamConnectionRemoteShutdown =>
        rw [given] at reason
        exact ⟨reason.1, by rw [(stays reason.1).1, (stays reason.1).2]; exact reason.2⟩
    | psnRegistFailed =>
        rw [given] at reason
        exact ⟨told reason.1, reason.2⟩
  · intro reason now
    obtain ⟨leaves, returned, given⟩ := why.str reason now
    exact ⟨leaves, (stays leaves).1.trans returned, (stays leaves).2.trans given⟩

theorem stepStream_explained {op : StreamConnectionOp} {r : Result} (why : s.Explained) (fits : s.Consistent h)
    (other : s.thread = .streaming ∨ (∀ o, op ≠ .run o) ∧ ∀ timeout o, op ≠ .wake timeout o)
    (stop : op = .stop → s.shouldStop = true) (done : s.stepStream cfg op = .ok r) :
    r.1.Explained ∧ r.1.thread = s.thread := by
  obtain ⟨inner, stepped, done⟩ := bind_eq_ok done
  cases done
  refine ⟨?_, rfl⟩
  refine why.beside id ?_ ?_
  · rintro (pipe | call | asked)
    · exact why.stop (.inl pipe)
    · exact why.stop (.inr (.inl call))
    · by_cases told : op = .stop
      · exact stop told
      · rw [StreamConnection.shouldStop_of_step stepped told] at asked
        exact why.stop (.inr (.inr asked))
  · by_cases there : s.thread = .streaming
    · exact .inl there
    · obtain ⟨notRun, notWake⟩ := other.resolve_left there
      rcases StreamConnection.step_cases stepped with ⟨o, run, -⟩ | ⟨timeout, o, wake, -⟩ | ⟨-, -, step⟩
      · exact absurd run (notRun o)
      · exact absurd wake (notWake timeout o)
      · exact .inr (quiet_stream fits.stream (fits.resting (not_streaming there)) step).2

end Others

/-! ## Runs -/

theorem step_explained {cfg : SessionConfig} {s : Session} {h : SessionHistory} {op : SessionOp} {r : Result}
    (why : s.Explained) (fits : s.Consistent h) (done : step cfg s op = .ok r) :
    r.1.Explained ∧ (r.1.thread = .ended →
      s.thread = .ended ∨ r = (s.goto .ended, [.event (.quit s.quitReason s.quitReasonStr)])) := by
  have stays {t : Session} (step : t.Explained ∧ t.thread = s.thread) : t.Explained ∧ (t.thread = .ended →
      s.thread = .ended ∨ r = (s.goto .ended, [.event (.quit s.quitReason s.quitReasonStr)])) :=
    ⟨step.1, fun now => .inl (step.2.symm.trans now)⟩
  cases op with
  | run o => exact stepRun_explained why fits done
  | wake timeout =>
      cases done
      have woken := stepWake_explained why timeout
      exact ⟨woken.1, fun now => .inl (woken.2 now)⟩
  | ctrl op =>
      cases done
      exact stays (stepCtrl_explained why op)
  | regist success nickname registKey =>
      cases done
      refine stays ?_
      unfold stepRegist
      repeat' split
      all_goals exact ⟨⟨why.reason, why.str, why.stop, why.failed, why.shares⟩, rfl⟩
  | registShare =>
      cases done
      exact stays (stepRegistShare_explained why fits)
  | stream op =>
      simp only [step] at done
      split at done
      case isTrue allowed =>
        refine stays (stepStream_explained why fits ?_ ?_ done)
        · cases op with
          | run | wake => exact .inl (by simpa [streams] using allowed)
          | _ => exact .inr (by simp)
        · rintro rfl
          simp [streams] at allowed
      · cases done
        exact stays ⟨why, rfl⟩
  | stop =>
      simp only [step] at done
      split at done
      · cases done
        exact stays ⟨why.beside (fun _ => rfl) (fun _ => rfl) (.inr ⟨rfl, rfl⟩), rfl⟩
      · cases done
        exact stays ⟨why, rfl⟩
  | stopStream =>
      simp only [step] at done
      split at done
      case isTrue called =>
        have asked : s.shouldStop = true := why.stop (.inr (.inl (by simp [called.1])))
        have why' : { s with stopCall := .signalling }.Explained :=
          why.beside id (fun _ => asked) (.inr ⟨rfl, rfl⟩)
        have fits' : { s with stopCall := .signalling }.Consistent h := { fits with }
        have stepped := stepStream_explained why' fits' (.inr (by simp)) (fun _ => asked) done
        exact stays ⟨stepped.1, stepped.2⟩
      · cases done
        exact stays ⟨why, rfl⟩
  | stopSignal =>
      simp only [step] at done
      split at done
      case isTrue called =>
        have asked : s.shouldStop = true := why.stop (.inr (.inl (by simp [called])))
        have why' : { s with stopCall := .none }.Explained := why.beside id (fun _ => asked) (.inr ⟨rfl, rfl⟩)
        have fits' : { s with stopCall := .none }.Consistent h := { fits with }
        have stepped := stepStream_explained why' fits' (.inr (by simp)) (fun _ => asked) done
        exact stays ⟨stepped.1, stepped.2⟩
      · cases done
        exact stays ⟨why, rfl⟩
  | setLoginPin pin malloc =>
      cases done
      refine stays ?_
      split
      · exact ⟨⟨why.reason, why.str, why.stop, why.failed, why.shares⟩, rfl⟩
      · exact ⟨why, rfl⟩
  | setControllerState state =>
      exact stays (stepStream_explained why fits (.inr (by simp)) (fun now => by cases now) done)
  | ctrlNotified =>
      cases done
      exact stays ⟨⟨why.reason, why.str, why.stop, why.failed, why.shares⟩, rfl⟩

/-- Once the thread has ended, the reason stays. -/
theorem ended_stays {cfg : SessionConfig} {s : Session} {h : SessionHistory} {op : SessionOp} {r : Result}
    (fits : s.Consistent h) (ended : s.thread = .ended) (done : step cfg s op = .ok r) :
    r.1.thread = .ended ∧ r.1.quitReason = s.quitReason ∧ r.1.quitReasonStr = s.quitReasonStr := by
  have place := fits.place
  rw [ended] at place
  have ctrl : s.ctrl.thread = .none ∨ s.ctrl.thread = .ended := place.ctrl
  have regist : s.registThread = .none ∨ s.registThread = .ended := place.regist
  have alike {op : StreamConnectionOp} {t : Session}
      (same : t.thread = .ended ∧ t.quitReason = s.quitReason ∧ t.quitReasonStr = s.quitReasonStr)
      (stepped : t.stepStream cfg op = .ok r) :
      r.1.thread = .ended ∧ r.1.quitReason = s.quitReason ∧ r.1.quitReasonStr = s.quitReasonStr := by
    obtain ⟨inner, -, stepped⟩ := bind_eq_ok stepped
    cases stepped
    exact same
  cases op with
  | run o =>
      simp only [step, stepRun, ended, runLocked] at done
      split at done <;> cases done <;> exact ⟨ended, rfl, rfl⟩
  | wake timeout =>
      simp only [step, stepWake, ended] at done
      cases done
      exact ⟨ended, rfl, rfl⟩
  | ctrl op =>
      cases done
      rcases ctrl with there | there <;> simp [stepCtrl, there, ended]
  | regist success nickname registKey =>
      cases done
      rcases regist with there | there <;> simp [stepRegist, there, ended]
  | registShare =>
      cases done
      rcases regist with there | there <;> simp [stepRegistShare, there, ended]
  | stream op =>
      simp only [step] at done
      split at done
      · exact alike ⟨ended, rfl, rfl⟩ done
      · cases done
        exact ⟨ended, rfl, rfl⟩
  | stop =>
      simp only [step] at done
      split at done <;> cases done <;> exact ⟨ended, rfl, rfl⟩
  | stopStream =>
      simp only [step] at done
      split at done
      · refine alike ?_ done
        exact ⟨ended, rfl, rfl⟩
      · cases done
        exact ⟨ended, rfl, rfl⟩
  | stopSignal =>
      simp only [step] at done
      split at done
      · refine alike ?_ done
        exact ⟨ended, rfl, rfl⟩
      · cases done
        exact ⟨ended, rfl, rfl⟩
  | setLoginPin pin malloc =>
      cases done
      split <;> exact ⟨ended, rfl, rfl⟩
  | setControllerState state => exact alike ⟨ended, rfl, rfl⟩ done
  | ctrlNotified =>
      cases done
      exact ⟨ended, rfl, rfl⟩

section Runs
variable {cfg : SessionConfig} {registKey nonce : Bytes} {controllerState : ControllerState} {ops : List SessionOp}
  {s t : Session} {h : SessionHistory} {outs : List (List SessionOut)} {lib : StreamConnectionLib}

theorem run_ended (fits : s.Consistent h) (ended : s.thread = .ended) (done : run (step cfg) s ops = .ok (t, outs)) :
    t.thread = .ended ∧ t.quitReason = s.quitReason ∧ t.quitReasonStr = s.quitReasonStr := by
  induction ops generalizing s h outs with
  | nil =>
      cases done
      exact ⟨ended, rfl, rfl⟩
  | cons op ops ih =>
      obtain ⟨s', out, outs', stepped, rest, -⟩ := run_cons_inv done
      obtain ⟨ended', reason, str⟩ := ended_stays fits ended stepped
      obtain ⟨last, reason', str'⟩ := ih (step_keeps fits stepped).2 ended' rest
      exact ⟨last, reason'.trans reason, str'.trans str⟩

/-- Nothing that is permitted takes the report back that the session has quit. -/
theorem next_stage {out : SessionOut} (permitted : h.Permitted lib out) :
    (h.stage = 6 → (h.next out).stage = 6) ∧ ((h.next out).stage < 6 → h.stage < 6) := by
  cases out with
  | event event =>
      cases event with
      | holepunch finished => cases finished <;> simp only [Permitted, Alive] at permitted <;> simp [next] <;> omega
      | nicknameReceived | loginPinRequest =>
          simp only [Permitted, Alive] at permitted
          simp [next]
          omega
      | quit => exact ⟨fun _ => rfl, fun _ => permitted⟩
      | keyboardOpen | keyboardTextChange | keyboardRemoteClose => exact ⟨id, id⟩
  | request | stream =>
      simp only [Permitted, Alive] at permitted
      simp [next]
      omega
  | pinEntered | pinSent | allocated | freed => exact ⟨id, id⟩

theorem stage_reported {outs : List SessionOut} (follows : Follows next (Permitted lib) h outs) :
    (h.stage = 6 → (outs.foldl next h).stage = 6) ∧ ((outs.foldl next h).stage < 6 → h.stage < 6) ∧
      ((∃ reason str, .event (.quit reason str) ∈ outs) → h.stage < 6 ∧ (outs.foldl next h).stage = 6) := by
  induction outs generalizing h with
  | nil => exact ⟨id, id, fun ⟨_, _, told⟩ => by cases told⟩
  | cons out outs ih =>
      obtain ⟨permitted, rest⟩ := follows
      obtain ⟨stays, before, reported⟩ := ih rest
      obtain ⟨stays', before'⟩ := next_stage permitted
      refine ⟨fun now => stays (stays' now), fun now => before' (before now), ?_⟩
      rintro ⟨reason, str, told⟩
      rcases List.mem_cons.mp told with rfl | later
      · exact ⟨permitted, stays rfl⟩
      · obtain ⟨open_, last⟩ := reported ⟨reason, str, later⟩
        exact ⟨before' open_, last⟩

/-- At stage 6 the thread has ended. -/
theorem Consistent.ended (fits : s.Consistent h) (reported : h.stage = 6) : s.thread = .ended := by
  have stage := fits.place.stage
  rw [reported] at stage
  cases there : s.thread with
  | ended => rfl
  | check wait | waiting wait | done wait =>
      rw [there] at stage
      cases wait <;> simp [SessionThread.stage, SessionWait.stage] at stage
  | _ =>
      rw [there] at stage
      simp [SessionThread.stage] at stage

theorem run_reported {reason : QuitReason} {str : Option Bytes} (why : s.Explained) (fits : s.Consistent h)
    (done : run (step cfg) s ops = .ok (t, outs)) (told : .event (.quit reason str) ∈ outs.flatten) :
    t.thread = .ended ∧ t.quitReason = reason ∧ t.quitReasonStr = str := by
  induction ops generalizing s h outs with
  | nil =>
      cases done
      cases told
  | cons op ops ih =>
      obtain ⟨s', out, outs', stepped, rest, rfl⟩ := run_cons_inv done
      obtain ⟨follows, fits'⟩ := step_keeps fits stepped
      have explained := step_explained why fits stepped
      rw [List.flatten_cons] at told
      rcases List.mem_append.mp told with now | later
      · obtain ⟨open_, last⟩ := (stage_reported follows).2.2 ⟨reason, str, now⟩
        have going : s.thread ≠ .ended := by
          intro ended
          rw [fits.place.reported ended] at open_
          exact absurd open_ (lt_irrefl 6)
        have ended := fits'.ended last
        cases (explained.2 ended).resolve_left going
        cases List.mem_singleton.mp now
        have last := run_ended fits' ended rest
        exact ⟨last.1, last.2.1, last.2.2⟩
      · exact ih explained.1 fits' rest later

theorem init_explained (cfg : SessionConfig) (registKey nonce : Bytes) (controllerState : ControllerState) :
    (init cfg registKey nonce controllerState).Explained where
  reason := ⟨rfl, .inr rfl⟩
  str := fun reason now => by cases now
  stop := by
    rintro (pipe | call | asked)
    · cases pipe
    · exact absurd rfl call
    · cases asked
  failed := fun now => by cases now
  shares := fun reason next now => by cases now

/-- Whatever the threads do in between each other: what the session reports when it has quit is explained by what has
happened. Two of the reasons are never reported, since another one always takes their place. -/
theorem quit_explained {reason : QuitReason} {str : Option Bytes}
    (done : run (step cfg) (init cfg registKey nonce controllerState) ops = .ok (s, outs))
    (told : .event (.quit reason str) ∈ outs.flatten) :
    s.thread = .ended ∧ s.Grounds reason ∧ reason ≠ .ctrlConnectionRefused ∧ reason ≠ .psnRegistFailed ∧
      ∀ given, str = some given →
        s.stream.runThread = .returned .disconnected ∧ s.stream.remoteDisconnectReason = some given := by
  have fits := (run_keeps done).2
  have why : s.Explained := by
    have kept := (along_true (init cfg registKey nonce controllerState) ops).preserves
      (fun s => s.Explained ∧ ∃ h, s.Consistent h)
      (fun s op s' out both _ stepped => by
        obtain ⟨why, h, fits⟩ := both
        exact ⟨(step_explained why fits stepped).1, _, (step_keeps fits stepped).2⟩)
      ⟨init_explained cfg registKey nonce controllerState, _, init_consistent cfg registKey nonce controllerState⟩ done
    exact kept.1
  obtain ⟨ended, rfl, rfl⟩ := run_reported (init_explained cfg registKey nonce controllerState)
    (init_consistent cfg registKey nonce controllerState) done told
  refine ⟨ended, why.reason, ?_, ?_, fun given now => (why.str given now).2⟩
  · intro refused
    have sharing := why.reason
    rw [refused] at sharing
    have ctrl := fits.place.ctrl
    rw [ended] at ctrl
    have sharing : s.ctrl.thread = .sharing (.failed .ctrlConnectFailed) .leave := sharing
    rcases ctrl with there | there <;> rw [there] at sharing <;> cases sharing
  · intro regist
    have early := why.reason
    rw [regist] at early
    have zone : s.thread.zone = .regist := early.2
    rw [ended] at zone
    cases zone

theorem quit_explained_stopped : ∃ outs s,
    run (step sampleConfig) (init sampleConfig [] [] .idle) sampleStopped = .ok (s, outs) ∧
    .event (.quit .stopped none) ∈ outs.flatten ∧ s.Grounds .stopped :=
  ⟨_, _, rfl, List.mem_singleton.mpr rfl,
    (@quit_explained sampleConfig [] [] .idle sampleStopped _ _ .stopped none rfl (List.mem_singleton.mpr rfl)).2.1⟩

end Runs

end Session
end Chiaki
