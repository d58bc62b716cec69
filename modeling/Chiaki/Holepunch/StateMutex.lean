import Chiaki.Base64.Decode
import Chiaki.Holepunch.Notifications
import Chiaki.Lib.Json
import Chiaki.Lib.Mutex
import Chiaki.Printf
import Chiaki.TextScan

/-!
# The mutex of the session's state

What `chiaki_holepunch_session_create`, from its notification loop on, and `chiaki_holepunch_session_start` do with
`state_mutex`. A round of a loop takes what `wait_for_notification` gives it, and what `main_should_stop` is when the
round reads it.
-/

namespace Chiaki.Holepunch
open Mutex

/-! ## Notifications -/

/-- `is_valid_index`. -/
def arrayIndex (token : Bytes) : Option Nat :=
  if token ≠ [] ∧ token.all (fun c => 0x30 ≤ c && c ≤ 0x39) ∧ (token.head? = some 0x30 → token.length = 1) then
    some (token.foldl (fun n c => n * 10 + (c.toNat - 0x30)) 0)
  else none

/-- `json_pointer_get`, with the path split at its slashes. -/
def jsonPointerGet : List Bytes → Json.Value → Option Json.Value
  | [], value => some value
  | token :: path, .array elements => do
      let element ← elements[← arrayIndex token]?
      jsonPointerGet path element
  | token :: path, value => do
      let member ← value.get token
      jsonPointerGet path member

/-- The string that a path leads to. -/
def jsonPointerString (path : List String) (json : Json.Value) : Option Bytes :=
  match jsonPointerGet (path.map text) json with
  | some (.string bytes) => some (cStr bytes)
  | _ => none

def onlineIdPath : List String := ["to", "onlineId"]
def deviceUniqueIdPath : List String := ["body", "data", "members", "0", "deviceUniqueId"]
def customData1Path : List String := ["body", "data", "customData1"]

/-- `hex_to_bytes`. A byte that is not scanned stays as it was. -/
def hexToBytes (hexStr bytes : Bytes) : Bytes :=
  let len := min hexStr.length (bytes.length * 2)
  (List.range ((len + 1) / 2)).foldl (fun bytes i =>
    match scanHexByte (hexStr.drop (2 * i)) with
    | some byte => bytes.set i byte
    | none => bytes) bytes

/-- `decode_customdata1`, with what `customdata1_round1` is before. -/
def decodeCustomdata1 (charSigned : Bool) (customdata1 round1 out : Bytes) : Checked (ErrorCode × Bytes) := do
  let first ← chiakiBase64Decode charSigned customdata1 round1 24
  if first.err ≠ .success then pure (first.err, out)
  else
    let second ← chiakiBase64Decode charSigned (first.out.take first.outSize) out first.outSize
    if second.err ≠ .success then pure (second.err, second.out)
    else if second.outSize ≠ 16 then pure (.unknown, second.out)
    else pure (.success, second.out)

/-- What `wait_for_notification` gives. -/
inductive Waited (α : Type) where
  | failed (err : ErrorCode)
  | notified (notif : α)

inductive Outcome where
  /-- In `wait_for_notification`. -/
  | waiting
  | returned (err : ErrorCode)
  /-- Nothing is said about what follows. -/
  | faulted (fault : Fault)
  deriving DecidableEq

def Outcome.isReturned : Outcome → Bool
  | .returned _ => true
  | _ => false

/-- What was called on `state_mutex`. -/
structure Trace where
  ops : List Op
  outcome : Outcome
  deriving DecidableEq

def Trace.behind (ops : List Op) (trace : Trace) : Trace := ⟨ops ++ trace.ops, trace.outcome⟩

def Trace.Disciplined (trace : Trace) : Prop := Mutex.Disciplined trace.ops trace.outcome.isReturned

instance (trace : Trace) : Decidable trace.Disciplined :=
  inferInstanceAs (Decidable (Mutex.Disciplined trace.ops trace.outcome.isReturned))

structure SessionState where
  created : Bool
  started : Bool
  clientJoined : Bool
  consoleJoined : Bool
  customData1Received : Bool
  deriving DecidableEq

/-! ## `chiaki_holepunch_session_create` -/

structure CreateTurn where
  type : NotificationType
  json : Json.Value
  /-- Whether there is memory for the online id. -/
  allocated : Bool
  stop : Bool

/-- The ways out of the loop with `state_mutex` held. -/
inductive CreateExit where
  | leave (err : ErrorCode)
  | cleanupThread (err : ErrorCode)

def createTurn (state : SessionState) (turn : CreateTurn) : Except CreateExit SessionState :=
  match turn.type with
  | .sessionCreated =>
      match jsonPointerString onlineIdPath turn.json with
      | none => .error (.leave .unknown)
      | some _ =>
          if !turn.allocated then .error (.cleanupThread .memory)
          else if turn.stop then .error (.cleanupThread .canceled)
          else .ok { state with created := true }
  | .memberCreated =>
      if turn.stop then .error (.cleanupThread .canceled)
      else .ok { state with clientJoined := true }
  | _ => .error (.cleanupThread .unknown)

def createLoop : SessionState → List (Waited CreateTurn) → Trace
  | _, [] => ⟨[], .waiting⟩
  | _, .failed err :: _ => ⟨[.fini], .returned err⟩
  | state, .notified turn :: later =>
      match createTurn state turn with
      | .error (.leave err) => ⟨[.lock], .returned err⟩
      | .error (.cleanupThread err) => ⟨[.lock, .fini], .returned err⟩
      | .ok state =>
          if state.created && state.clientJoined then ⟨[.lock, .unlock], .returned .success⟩
          else (createLoop state later).behind [.lock, .unlock]

/-! ## `chiaki_holepunch_session_start` -/

inductive ConsoleType where
  | ps4
  | ps5
  deriving DecidableEq

structure StartTurn where
  type : NotificationType
  json : Json.Value
  /-- `duid_bytes` and `customdata1_round1`, before anything is written there. -/
  duidBytes : Vector UInt8 32
  round1 : Vector UInt8 24
  stop : Bool

structure StartSession where
  state : SessionState
  consoleUid : Bytes
  customData1 : Bytes
  deriving DecidableEq

section Start
variable (charSigned : Bool) (consoleType : ConsoleType)

/-- What a round does up to `clear_notification`. Without a session it breaks out of the loop. -/
def startTurn (session : StartSession) (turn : StartTurn) : Checked (Except ErrorCode StartSession) :=
  match turn.type with
  | .memberCreated =>
      match jsonPointerString deviceUniqueIdPath turn.json with
      | none => pure (.error .unknown)
      | some memberDuid =>
          if memberDuid.length ≠ 64 then pure (.error .unknown)
          else
            let duidBytes := hexToBytes memberDuid turn.duidBytes.toList
            -- the console's id is not known beforehand for a PS4
            if consoleType = .ps4 then
              pure (.ok { session with consoleUid := duidBytes, state := { session.state with consoleJoined := true } })
            else if duidBytes ≠ session.consoleUid then pure (.error .unknown)
            else pure (.ok { session with state := { session.state with consoleJoined := true } })
  | .customData1Updated =>
      match jsonPointerString customData1Path turn.json with
      | none => pure (.error .unknown)
      | some customData1 =>
          if customData1.length ≠ 32 then pure (.error .unknown)
          else do
            let (err, out) ← decodeCustomdata1 charSigned customData1 turn.round1.toList session.customData1
            if err ≠ .success then pure (.error err)
            else pure (.ok { session with
              customData1 := out, state := { session.state with customData1Received := true } })
  | _ => pure (.error .unknown)

def startWaitError : ErrorCode → ErrorCode
  | .timeout => .hostDown
  | .canceled => .canceled
  | _ => .unknown

def startLoop : StartSession → List (Waited StartTurn) → Trace
  | _, [] => ⟨[], .waiting⟩
  | _, .failed err :: _ => ⟨[], .returned (startWaitError err)⟩
  | session, .notified turn :: later =>
      match startTurn charSigned consoleType session turn with
      | .error fault => ⟨[.lock], .faulted fault⟩
      | .ok (.error err) => ⟨[.lock, .unlock], .returned err⟩
      | .ok (.ok session) =>
          if turn.stop then ⟨[.lock], .returned .canceled⟩
          else if session.state.consoleJoined && session.state.customData1Received then
            -- once at the end of the round, once behind the loop
            ⟨[.lock, .unlock, .unlock], .returned .success⟩
          else (startLoop session later).behind [.lock, .unlock]

end Start

structure StartCall where
  charSigned : Bool
  consoleType : ConsoleType
  deviceUid : Vector UInt8 32
  session : StartSession
  /-- What `http_ps4_session_wakeup` or `http_start_session` returns. -/
  request : ErrorCode
  /-- `main_should_stop` before the loop. -/
  stop : Bool
  waits : List (Waited StartTurn)

/-- The session that the loop starts with. -/
def StartCall.prepared (call : StartCall) : StartSession :=
  match call.consoleType with
  | .ps4 => call.session
  | .ps5 => { call.session with consoleUid := call.deviceUid.toList }

def sessionStart (call : StartCall) : Trace :=
  if !call.session.state.created then ⟨[], .returned .uninitialized⟩
  else if call.session.state.started then ⟨[], .returned .unknown⟩
  else if call.request ≠ .success then ⟨[], .returned call.request⟩
  else if call.stop then ⟨[], .returned .canceled⟩
  else startLoop call.charSigned call.consoleType call.prepared call.waits

/-- The two functions. -/
inductive SessionCall where
  | create (state : SessionState) (waits : List (Waited CreateTurn))
  | start (call : StartCall)

def SessionCall.trace : SessionCall → Trace
  | .create state waits => createLoop state waits
  | .start call => sessionStart call

/-! ## When the mutex is given back -/

/-- The round goes on to the end. -/
structure CreateTurn.Accepted (turn : CreateTurn) : Prop where
  known : turn.type = .sessionCreated ∧ (jsonPointerString onlineIdPath turn.json).isSome ∧ turn.allocated = true ∨
    turn.type = .memberCreated
  running : turn.stop = false

/-- Up to the notification that completes the session, all are accepted. -/
def CreateReleases : (created clientJoined : Bool) → List (Waited CreateTurn) → Prop
  | created, clientJoined, .notified turn :: later =>
      turn.Accepted ∧
        ((created || turn.type == .sessionCreated) && (clientJoined || turn.type == .memberCreated) ∨
          CreateReleases (created || turn.type == .sessionCreated) (clientJoined || turn.type == .memberCreated) later)
  | _, _, _ => True

/-- The notification tells of the console that was asked for. -/
def StartTurn.Identifies (turn : StartTurn) (consoleType : ConsoleType) (consoleUid : Bytes) : Prop :=
  ∃ memberDuid, jsonPointerString deviceUniqueIdPath turn.json = some memberDuid ∧ memberDuid.length = 64 ∧
    (consoleType = .ps5 → hexToBytes memberDuid turn.duidBytes.toList = consoleUid)

/-- The notification brings the data that is left in `out`. -/
def StartTurn.Decodes (turn : StartTurn) (charSigned : Bool) (before out : Bytes) : Prop :=
  ∃ customData1, jsonPointerString customData1Path turn.json = some customData1 ∧ customData1.length = 32 ∧
    decodeCustomdata1 charSigned customData1 turn.round1.toList before = .ok (.success, out)

/-- No notification that is accepted completes the start, and the session is not stopped behind one. -/
def StartReleases (charSigned : Bool) (consoleType : ConsoleType) (consoleUid : Bytes) :
    (customData1 : Bytes) → (consoleJoined received : Bool) → List (Waited StartTurn) → Prop
  | customData1, consoleJoined, received, .notified turn :: later =>
      match turn.type with
      | .memberCreated => turn.Identifies consoleType consoleUid →
          turn.stop = false ∧ received = false ∧
            StartReleases charSigned consoleType consoleUid customData1 true received later
      | .customData1Updated => ∀ out, turn.Decodes charSigned customData1 out →
          turn.stop = false ∧ consoleJoined = false ∧
            StartReleases charSigned consoleType consoleUid out consoleJoined true later
      | _ => True
  | _, _, _, _ => True

/-- The loop is reached. -/
structure StartCall.Enters (call : StartCall) : Prop where
  created : call.session.state.created = true
  notStarted : call.session.state.started = false
  requested : call.request = .success
  running : call.stop = false

def SessionCall.Releases : SessionCall → Prop
  | .create state waits => CreateReleases state.created state.clientJoined waits
  | .start call => call.Enters → StartReleases call.charSigned call.consoleType call.prepared.consoleUid
      call.session.customData1 call.session.state.consoleJoined call.session.state.customData1Received call.waits

/-! ## Creating -/

section Create
variable {state : SessionState} {turn : CreateTurn}

theorem createTurn_accepted (accepted : turn.Accepted) : ∃ after, createTurn state turn = .ok after ∧
    after.created = (state.created || turn.type == .sessionCreated) ∧
    after.clientJoined = (state.clientJoined || turn.type == .memberCreated) := by
  obtain ⟨known, running⟩ := accepted
  cases known with
  | inl session =>
      obtain ⟨type, online, allocated⟩ := session
      obtain ⟨onlineId, online⟩ := Option.isSome_iff_exists.mp online
      simp [createTurn, type, online, allocated, running]
  | inr type => simp [createTurn, type, running]

theorem createTurn_refused (refused : ¬ turn.Accepted) : ∃ exit, createTurn state turn = .error exit := by
  cases result : createTurn state turn with
  | error exit => exact ⟨exit, rfl⟩
  | ok after =>
      apply absurd _ refused
      unfold createTurn at result
      split at result
      case h_1 type =>
          split at result
          case h_1 missing => cases result
          case h_2 onlineId online =>
              cases allocated : turn.allocated <;> cases running : turn.stop <;> simp [allocated, running] at result
              exact ⟨.inl ⟨type, by rw [online]; rfl, allocated⟩, running⟩
      case h_2 type =>
          cases running : turn.stop <;> simp [running] at result
          exact ⟨.inr type, running⟩
      case h_3 => cases result

theorem disciplined_behind (trace : Trace) : (trace.behind [.lock, .unlock]).Disciplined ↔ trace.Disciplined :=
  disciplined_round trace.ops trace.outcome.isReturned

theorem createLoop_next {after : SessionState} (went : createTurn state turn = .ok after)
    (later : List (Waited CreateTurn)) : createLoop state (.notified turn :: later) =
      if after.created && after.clientJoined then ⟨[.lock, .unlock], .returned .success⟩
      else (createLoop after later).behind [.lock, .unlock] := by
  rw [createLoop, went]

theorem createLoop_disciplined_iff (state : SessionState) (waits : List (Waited CreateTurn)) :
    (createLoop state waits).Disciplined ↔ CreateReleases state.created state.clientJoined waits := by
  induction waits generalizing state with
  | nil => exact iff_of_true (by decide : Trace.Disciplined ⟨[], .waiting⟩) trivial
  | cons wait later ih =>
      cases wait with
      | failed err => exact iff_of_true ⟨⟨rfl, trivial⟩, fun _ => rfl, fun _ => rfl⟩ trivial
      | notified turn =>
          by_cases accepted : turn.Accepted
          · obtain ⟨after, went, created, clientJoined⟩ := @createTurn_accepted state turn accepted
            rw [createLoop_next went, CreateReleases, and_iff_right accepted, ← created, ← clientJoined]
            by_cases finished : after.created && after.clientJoined
            · rw [if_pos finished]
              exact iff_of_true (disciplined_released true) (.inl finished)
            · rw [if_neg finished, disciplined_behind, ih, or_iff_right finished]
          · refine iff_of_false ?_ (fun releases => accepted releases.1)
            obtain ⟨exit, refused⟩ : ∃ exit, createTurn state turn = .error exit := createTurn_refused accepted
            rw [createLoop, refused]
            cases exit with
            | leave err => exact not_disciplined_kept
            | cleanupThread err => exact not_disciplined_destroyed true

end Create

/-! ## Starting -/

section Start
variable {charSigned : Bool} {consoleType : ConsoleType} {session : StartSession} {turn : StartTurn}

/-- The id of a PS4 is whatever its first notification says. -/
def Named (consoleType : ConsoleType) (consoleUid : Bytes) (session : StartSession) : Prop :=
  consoleType = .ps5 → session.consoleUid = consoleUid

variable {consoleUid : Bytes}

theorem startTurn_identified (named : Named consoleType consoleUid session) (member : turn.type = .memberCreated)
    (identifies : turn.Identifies consoleType consoleUid) : ∃ after,
      startTurn charSigned consoleType session turn = .ok (.ok after) ∧ Named consoleType consoleUid after ∧
      after.customData1 = session.customData1 ∧ after.state = { session.state with consoleJoined := true } := by
  obtain ⟨memberDuid, found, size, same⟩ := identifies
  cases consoleType with
  | ps4 =>
      exact ⟨⟨{ session.state with consoleJoined := true }, hexToBytes memberDuid turn.duidBytes.toList,
        session.customData1⟩, by simp [startTurn, member, found, size]; rfl, nofun, rfl, rfl⟩
  | ps5 =>
      have uid := (same rfl).trans (named rfl).symm
      exact ⟨⟨{ session.state with consoleJoined := true }, session.consoleUid, session.customData1⟩,
        by simp [startTurn, member, found, size, uid]; rfl, named, rfl, rfl⟩

theorem startTurn_unidentified (named : Named consoleType consoleUid session) (member : turn.type = .memberCreated)
    (other : ¬ turn.Identifies consoleType consoleUid) :
    ∃ err, startTurn charSigned consoleType session turn = .ok (.error err) := by
  cases found : jsonPointerString deviceUniqueIdPath turn.json with
  | none => exact ⟨_, by simp [startTurn, member, found]; rfl⟩
  | some memberDuid =>
      by_cases size : memberDuid.length = 64
      · cases consoleType with
        | ps4 => exact absurd ⟨memberDuid, found, size, nofun⟩ other
        | ps5 =>
            have different : hexToBytes memberDuid turn.duidBytes.toList ≠ session.consoleUid :=
              fun same => other ⟨memberDuid, found, size, fun _ => same.trans (named rfl)⟩
            exact ⟨_, by simp [startTurn, member, found, size, different]; rfl⟩
      · exact ⟨_, by simp [startTurn, member, found, size]; rfl⟩

theorem StartTurn.Decodes.unique {before out out' : Bytes} (first : turn.Decodes charSigned before out)
    (second : turn.Decodes charSigned before out') : out = out' := by
  obtain ⟨customData1, found, -, decoded⟩ := first
  obtain ⟨customData1', found', -, decoded'⟩ := second
  obtain rfl := Option.some.inj (found.symm.trans found')
  exact (Prod.mk.inj (Except.ok.inj (decoded.symm.trans decoded'))).2

theorem startTurn_data (data : turn.type = .customData1Updated) :
    (∃ out after, turn.Decodes charSigned session.customData1 out ∧
      startTurn charSigned consoleType session turn = .ok (.ok after) ∧ after.consoleUid = session.consoleUid ∧
      after.customData1 = out ∧ after.state = { session.state with customData1Received := true }) ∨
    (∀ out, ¬ turn.Decodes charSigned session.customData1 out) ∧
      ((∃ err, startTurn charSigned consoleType session turn = .ok (.error err)) ∨
        ∃ fault, startTurn charSigned consoleType session turn = .error fault) := by
  cases found : jsonPointerString customData1Path turn.json with
  | none =>
      refine .inr ⟨fun out decodes => ?_, .inl ⟨.unknown, by simp [startTurn, data, found]; rfl⟩⟩
      obtain ⟨customData1, found', -⟩ := decodes
      cases found.symm.trans found'
  | some customData1 =>
      by_cases size : customData1.length = 32
      · cases decoded : decodeCustomdata1 charSigned customData1 turn.round1.toList session.customData1 with
        | error fault =>
            refine .inr ⟨fun out decodes => ?_, .inr ⟨fault, by simp [startTurn, data, found, size, decoded]; rfl⟩⟩
            obtain ⟨customData1', found', -, decoded'⟩ := decodes
            obtain rfl := Option.some.inj (found.symm.trans found')
            cases decoded.symm.trans decoded'
        | ok result =>
            obtain ⟨err, out⟩ := result
            by_cases success : err = .success
            · subst success
              exact .inl ⟨out, ⟨{ session.state with customData1Received := true }, session.consoleUid, out⟩,
                ⟨customData1, found, size, decoded⟩, by simp [startTurn, data, found, size, decoded, ok_bind]; rfl,
                rfl, rfl, rfl⟩
            · refine .inr ⟨fun out' decodes => ?_, .inl ⟨err, by
                simp [startTurn, data, found, size, decoded, ok_bind, success]; rfl⟩⟩
              obtain ⟨customData1', found', -, decoded'⟩ := decodes
              obtain rfl := Option.some.inj (found.symm.trans found')
              exact success (Prod.mk.inj (Except.ok.inj (decoded.symm.trans decoded'))).1
      · refine .inr ⟨fun out decodes => ?_, .inl ⟨.unknown, by simp [startTurn, data, found, size]; rfl⟩⟩
        obtain ⟨customData1', found', size', -⟩ := decodes
        obtain rfl := Option.some.inj (found.symm.trans found')
        exact size size'

theorem startLoop_next {after : StartSession}
    (went : startTurn charSigned consoleType session turn = .ok (.ok after)) (later : List (Waited StartTurn)) :
    startLoop charSigned consoleType session (.notified turn :: later) =
      if turn.stop then ⟨[.lock], .returned .canceled⟩
      else if after.state.consoleJoined && after.state.customData1Received then
        ⟨[.lock, .unlock, .unlock], .returned .success⟩
      else (startLoop charSigned consoleType after later).behind [.lock, .unlock] := by
  rw [startLoop, went]

/-- A notification that is not accepted ends the loop with the mutex given back. -/
theorem startLoop_refused {later : List (Waited StartTurn)}
    (refused : (∃ err, startTurn charSigned consoleType session turn = .ok (.error err)) ∨
      ∃ fault, startTurn charSigned consoleType session turn = .error fault) :
    (startLoop charSigned consoleType session (.notified turn :: later)).Disciplined := by
  cases refused with
  | inl left =>
      obtain ⟨err, left⟩ := left
      rw [startLoop, left]
      exact disciplined_released true
  | inr left =>
      obtain ⟨fault, left⟩ := left
      rw [startLoop, left]
      exact ⟨⟨trivial, trivial⟩, nofun, nofun⟩

/-- A notification that is accepted goes on only in a session that is neither stopped nor complete. -/
theorem startLoop_accepted {after : StartSession} {later : List (Waited StartTurn)}
    (went : startTurn charSigned consoleType session turn = .ok (.ok after)) :
    (startLoop charSigned consoleType session (.notified turn :: later)).Disciplined ↔
      turn.stop = false ∧ (after.state.consoleJoined && after.state.customData1Received) = false ∧
        (startLoop charSigned consoleType after later).Disciplined := by
  rw [startLoop_next went]
  cases stop : turn.stop with
  | true => exact iff_of_false not_disciplined_kept nofun
  | false =>
      cases finished : after.state.consoleJoined && after.state.customData1Received with
      | true => exact iff_of_false (not_disciplined_twice true) fun h => nomatch h.2.1
      | false =>
          rw [if_neg nofun, if_neg nofun, disciplined_behind]
          exact (and_iff_right rfl).symm.trans (and_iff_right rfl).symm

theorem startLoop_disciplined_iff (named : Named consoleType consoleUid session) (waits : List (Waited StartTurn)) :
    (startLoop charSigned consoleType session waits).Disciplined ↔
      StartReleases charSigned consoleType consoleUid session.customData1 session.state.consoleJoined
        session.state.customData1Received waits := by
  induction waits generalizing session with
  | nil => exact iff_of_true ⟨trivial, nofun, nofun⟩ trivial
  | cons wait later ih =>
      cases wait with
      | failed err => exact iff_of_true ⟨trivial, fun _ => rfl, fun _ => rfl⟩ trivial
      | notified turn =>
          rw [StartReleases]
          cases type : turn.type with
          | memberCreated =>
              by_cases identifies : turn.Identifies consoleType consoleUid
              · obtain ⟨after, went, still, data, state⟩ :=
                  @startTurn_identified charSigned consoleType session turn consoleUid named type identifies
                rw [startLoop_accepted went, ih still, data, state, forall_prop_of_true identifies, Bool.true_and]
              · obtain ⟨err, refused⟩ :=
                  @startTurn_unidentified charSigned consoleType session turn consoleUid named type identifies
                exact iff_of_true (startLoop_refused (.inl ⟨err, refused⟩)) fun identifies' => absurd identifies' identifies
          | customData1Updated =>
              cases @startTurn_data charSigned consoleType session turn type with
              | inl accepted =>
                  obtain ⟨_, after, decodes, went, uid, rfl, state⟩ := accepted
                  have still : Named consoleType consoleUid after := fun ps5 => uid.trans (named ps5)
                  rw [startLoop_accepted went, ih still, state, Bool.and_true]
                  constructor
                  · intro goes out' decodes'
                    rwa [decodes'.unique decodes]
                  · intro goes
                    exact goes _ decodes
              | inr refused => exact iff_of_true (startLoop_refused refused.2) fun out decodes => absurd decodes (refused.1 out)
          | _ => exact iff_of_true (startLoop_refused (.inl ⟨.unknown, by rw [startTurn, type]; rfl⟩)) trivial

end Start

theorem sessionStart_enters {call : StartCall} (enters : call.Enters) :
    sessionStart call = startLoop call.charSigned call.consoleType call.prepared call.waits := by
  simp [sessionStart, enters.created, enters.notStarted, enters.requested, enters.running]

theorem sessionStart_refused {call : StartCall} (refused : ¬ call.Enters) :
    ∃ err, sessionStart call = ⟨[], .returned err⟩ := by
  unfold sessionStart
  split
  · exact ⟨_, rfl⟩
  split
  · exact ⟨_, rfl⟩
  split
  · exact ⟨_, rfl⟩
  split
  · exact ⟨_, rfl⟩
  · rename_i created started requested stop
    simp only [Bool.not_eq_true', Bool.not_eq_false, Bool.not_eq_true, not_not] at created started requested stop
    exact absurd ⟨created, started, requested, stop⟩ refused

/-- `state_mutex` is given back as it should be exactly in these runs. -/
theorem stateMutex_disciplined_iff (call : SessionCall) : call.trace.Disciplined ↔ call.Releases := by
  cases call with
  | create state waits => exact createLoop_disciplined_iff state waits
  | start call =>
      by_cases enters : call.Enters
      · have named : Named call.consoleType call.prepared.consoleUid call.prepared := fun _ => rfl
        have same : call.prepared.customData1 = call.session.customData1 ∧ call.prepared.state = call.session.state := by
          unfold StartCall.prepared
          cases call.consoleType <;> exact ⟨rfl, rfl⟩
        have started := @startLoop_disciplined_iff call.charSigned _ _ _ named call.waits
        rw [same.1, same.2] at started
        rw [SessionCall.trace, sessionStart_enters enters, started]
        exact ⟨fun releases _ => releases, fun releases => releases enters⟩
      · obtain ⟨err, returned⟩ := sessionStart_refused enters
        refine iff_of_true ?_ fun enters' => absurd enters' enters
        rw [SessionCall.trace, returned]
        exact ⟨trivial, fun _ => rfl, fun _ => rfl⟩

/-- A session that is created without the online id, and a start that succeeds. -/
theorem not_stateMutex_disciplined :
    ¬ (SessionCall.create ⟨false, false, false, false, false⟩
        [.notified ⟨.sessionCreated, .object [], true, false⟩]).trace.Disciplined ∧
    ¬ (SessionCall.start {
        charSigned := true
        consoleType := .ps5
        deviceUid := Vector.replicate 32 0
        session := ⟨⟨true, false, true, false, false⟩, List.replicate 32 0, List.replicate 16 0⟩
        request := .success
        stop := false
        waits := [
          .notified ⟨.memberCreated, .object [(text "body", .object [(text "data", .object [(text "members", .array [
            .object [(text "deviceUniqueId", .string (List.replicate 64 0x30))]])])])],
            Vector.replicate 32 0, Vector.replicate 24 0, false⟩,
          .notified ⟨.customData1Updated, .object [(text "body", .object [(text "data", .object [(text "customData1",
            .string (text "QUFBQUFBQUFBQUFBQUFBQUFBQUFBQT09"))])])],
            Vector.replicate 32 0, Vector.replicate 24 0, false⟩] }).trace.Disciplined := by
  decide +kernel

end Chiaki.Holepunch
