import Chiaki.Ctrl.Handlers

/-!
# Payloads of any content

Which payloads the handlers of control messages read inside their bounds, without a failing assertion.
-/

namespace Chiaki
open Memory

/-! ## The fallback session id -/

theorem fallbackSessionId_ok (env : CtrlSurroundings) : ∃ r, fallbackSessionId env = .ok r ∧
    ∀ buf, r = .ok buf → buf.length = sessionIdSizeMax := by
  have digits := length_decimal_le (by decide) env.time_small
  have stack := env.length_stack
  have short : ((decimal env.timeSeconds).take 15).length ≤ 15 := List.length_take_le _ _
  obtain ⟨buf, written, -, length⟩ := @setField_ok env.stack ((decimal env.timeSeconds).take 15 ++ [0]) 0 (by
    rw [List.length_append, List.length_singleton, stack, sessionIdSizeMax]
    omega)
  rw [fallbackSessionId, written, ok_bind]
  cases random : env.randomBytes with
  | error err => exact ⟨_, rfl, nofun⟩
  | ok bytes =>
      have count := length_base64Text bytes
      rw [env.length_random bytes random] at count
      have encoded : base64Encode bytes 65 = .ok (base64Text bytes ++ [0]) := by
        rw [base64Encode, if_neg (by omega)]
      obtain ⟨buf', written', -, length'⟩ := @setField_ok buf (base64Text bytes ++ [0]) (decimal env.timeSeconds).length (by
        rw [List.length_append, List.length_singleton, count, length, stack, sessionIdSizeMax]
        omega)
      dsimp only
      rw [encoded]
      dsimp only
      rw [written']
      refine ⟨_, rfl, ?_⟩
      intro final same
      rw [← Except.ok.inj same, length', length, stack]

/-- A computation that ends with a pure step fails where the first part does. -/
theorem bind_pure_ok_iff {α β : Type} (x : Checked α) (f : α → β) :
    (∃ r, (x >>= fun a => pure (f a)) = .ok r) ↔ ∃ a, x = .ok a := by
  constructor
  · rintro ⟨r, ran⟩
    obtain ⟨a, got, -⟩ := bind_eq_ok ran
    exact ⟨a, got⟩
  · rintro ⟨a, rfl⟩
    exact ⟨f a, rfl⟩

namespace CtrlSession
variable {env : CtrlSurroundings} {ctrl : CtrlSession}

theorem setFallbackSessionId_ok (room : ctrl.sessionId.length = sessionIdSizeMax) :
    ∃ r, ctrl.setFallbackSessionId env = .ok r := by
  obtain ⟨fallback, made, size⟩ := fallbackSessionId_ok env
  rw [setFallbackSessionId, made, ok_bind]
  cases fallback with
  | error err => exact ⟨_, rfl⟩
  | ok buf =>
      dsimp only
      split
      · exact ⟨_, rfl⟩
      · obtain ⟨sessionId, written, -⟩ := @setField_ok ctrl.sessionId buf 0 (by rw [size buf rfl, room, Nat.zero_add])
        rw [written]
        exact ⟨_, rfl⟩

/-! ## Each handler -/

theorem zero_mem_iff {payload : Bytes} (short : payload.length < 2) : 0 ∈ payload ↔ payload = [0] := by
  cases payload with
  | nil => simp
  | cons c rest =>
      obtain rfl : rest = [] := List.eq_nil_of_length_eq_zero (by simpa using short)
      rw [List.mem_singleton, List.singleton_inj]
      exact eq_comm

theorem receivedSessionId_ok_iff (room : ctrl.sessionId.length = sessionIdSizeMax) (payload : Bytes) :
    (∃ r, ctrl.receivedSessionId env payload = .ok r) ↔
      ctrl.ctrlSessionIdReceived = true ∨ env.logsErrors = false ∨ 2 ≤ payload.length ∨ payload = [0] := by
  have fallback := @setFallbackSessionId_ok env ctrl room
  rw [receivedSessionId]
  split
  · rename_i received
    exact ⟨fun _ => .inl received, fun _ => ⟨_, rfl⟩⟩
  rename_i received
  split
  · rename_i short
    cases logs : env.logsErrors with
    | false => exact ⟨fun _ => .inr (.inl rfl), fun _ => fallback⟩
    | true =>
        rw [if_pos rfl, logString]
        split
        · rename_i ends
          exact ⟨fun _ => .inr (.inr (.inr ((zero_mem_iff short).mp ends))), fun _ => fallback⟩
        · rename_i open_
          constructor
          · rintro ⟨r, ran⟩
            cases ran
          · rintro (done | silent | long | zero)
            · exact absurd done received
            · cases silent
            · exact absurd long (not_le.mpr short)
            · exact absurd ((zero_mem_iff short).mpr zero) open_
  rename_i long
  refine ⟨fun _ => .inr (.inr (.inl (not_lt.mp long))), fun _ => ?_⟩
  dsimp only
  split
  · exact fallback
  split
  · exact fallback
  split
  · exact fallback
  rename_i fits _ _
  obtain ⟨written, set, -⟩ := @setField_ok ctrl.sessionId (payload.drop 1 ++ [0]) 0 (by
    rw [List.length_append, List.length_singleton, room]
    omega)
  rw [set]
  exact ⟨_, rfl⟩

theorem receivedDisplaya_ok_iff (payload : Bytes) : (∃ r, ctrl.receivedDisplaya payload = .ok r) ↔
    payload ≠ [] ∧ (payload.head? = some 0 → ctrl.cantDisplayb = false → ctrl.displaySink = true) := by
  cases payload with
  | nil =>
      refine ⟨?_, fun fits => absurd rfl fits.1⟩
      rintro ⟨r, ran⟩
      cases ran
  | cons state rest =>
      rw [receivedDisplaya, byteAt_eq (Nat.zero_lt_succ _), ok_bind, List.getElem_cons_zero]
      by_cases one : state = 1
      · rw [if_pos one]
        refine ⟨fun _ => ⟨List.cons_ne_nil _ _, ?_⟩, fun _ => ⟨_, rfl⟩⟩
        rw [one]
        nofun
      rw [if_neg one]
      by_cases shows : state = 0 ∧ ctrl.cantDisplayb = false
      · rw [if_pos shows, callCantDisplay]
        cases sink : ctrl.displaySink with
        | true => exact ⟨fun _ => ⟨List.cons_ne_nil _ _, fun _ _ => rfl⟩, fun _ => ⟨_, rfl⟩⟩
        | false =>
            constructor
            · rintro ⟨r, ran⟩
              cases ran
            · rintro ⟨-, called⟩
              cases called (by rw [shows.1]; rfl) shows.2
      · rw [if_neg shows]
        refine ⟨fun _ => ⟨List.cons_ne_nil _ _, ?_⟩, fun _ => ⟨_, rfl⟩⟩
        intro zero visible
        exact absurd ⟨Option.some.inj zero, visible⟩ shows

theorem startsWith_cases (payload : Bytes) (first second : UInt8) :
    (∃ fault, startsWith payload first second = .error fault ∧ (payload = [] ∨ payload = [first])) ∨
      (startsWith payload first second = .ok (decide (payload.take 2 = [first, second])) ∧ payload ≠ [] ∧ payload ≠ [first]) := by
  cases payload with
  | nil => exact .inl ⟨_, rfl, .inl rfl⟩
  | cons a rest =>
      rw [startsWith, byteAt_eq (Nat.zero_lt_succ _), ok_bind, List.getElem_cons_zero]
      by_cases same : a = first
      · rw [if_neg (not_not.mpr same)]
        cases rest with
        | nil => exact .inl ⟨_, rfl, .inr (by rw [same])⟩
        | cons b rest =>
            right
            rw [byteAt_eq (by simp)]
            refine ⟨?_, List.cons_ne_nil _ _, by simp⟩
            simp [same, pure, Except.pure, ok_bind]
      · rw [if_pos same]
        exact .inr ⟨by simp [same, pure, Except.pure], List.cons_ne_nil _ _, by simp [same]⟩

theorem unblockDisplayb_ok_iff (payload : Bytes) : (∃ r, ctrl.unblockDisplayb payload = .ok r) ↔
    (ctrl.cantDisplayb = true → payload ≠ [] ∧ payload ≠ [1]) := by
  rw [unblockDisplayb]
  cases b : ctrl.cantDisplayb with
  | false => exact ⟨fun _ never => absurd never Bool.false_ne_true, fun _ => ⟨_, rfl⟩⟩
  | true =>
      rw [if_pos rfl]
      rcases startsWith_cases payload 1 0xff with ⟨fault, failed, short⟩ | ⟨started, some_, long⟩
      · rw [failed]
        constructor
        · rintro ⟨r, ran⟩
          cases ran
        · intro fits
          rcases short with empty | single
          · exact absurd empty (fits rfl).1
          · exact absurd single (fits rfl).2
      · rw [started]
        exact ⟨fun _ _ => ⟨some_, long⟩, fun _ => ⟨_, rfl⟩⟩

/-- What the first part of the handler reads and calls. -/
def BlockFits (ctrl : CtrlSession) (payload : Bytes) : Prop := ctrl.cantDisplaya = true → payload ≠ [] ∧ payload ≠ [0] ∧
  (payload.take 2 = [0, 0] → ctrl.cantDisplayb = false → ctrl.displaySink = true)

theorem blockDisplayb_cases (payload : Bytes) : (∃ fault, ctrl.blockDisplayb payload = .error fault ∧ ¬ ctrl.BlockFits payload) ∨
    ctrl.BlockFits payload ∧ (ctrl.blockDisplayb payload = .ok (ctrl, []) ∨ (payload.take 2 = [0, 0] ∧ ctrl.cantDisplayb = false ∧
      ctrl.blockDisplayb payload = .ok ({ ctrl with cantDisplayb := true }, [.cantDisplay true]))) := by
  rw [blockDisplayb]
  cases a : ctrl.cantDisplaya with
  | false =>
      refine .inr ⟨fun never => ?_, .inl rfl⟩
      rw [a] at never
      cases never
  | true =>
      rw [if_pos rfl]
      rcases startsWith_cases payload 0 0 with ⟨fault, failed, short⟩ | ⟨started, some_, notZero⟩
      · left
        rw [failed]
        refine ⟨fault, rfl, fun fits => ?_⟩
        rcases short with empty | zero
        · exact (fits a).1 empty
        · exact (fits a).2.1 zero
      · rw [started, ok_bind]
        by_cases blocks : payload.take 2 = [0, 0] ∧ ctrl.cantDisplayb = false
        · rw [decide_eq_true blocks.1, blocks.2, callCantDisplay]
          cases sink : ctrl.displaySink with
          | true => exact .inr ⟨fun _ => ⟨some_, notZero, fun _ _ => sink⟩, .inr ⟨blocks.1, rfl, rfl⟩⟩
          | false =>
              refine .inl ⟨.nullPointer, rfl, fun fits => ?_⟩
              rw [(fits a).2.2 blocks.1 blocks.2] at sink
              cases sink
        · right
          have goesOn : (decide (payload.take 2 = [0, 0]) && !ctrl.cantDisplayb) = false := by
            simpa using blocks
          rw [goesOn]
          exact ⟨fun _ => ⟨some_, notZero, fun zeros visible => absurd ⟨zeros, visible⟩ blocks⟩, .inl rfl⟩

theorem receivedDisplayb_ok_iff (payload : Bytes) : (∃ r, ctrl.receivedDisplayb payload = .ok r) ↔
    ctrl.BlockFits payload ∧ (ctrl.cantDisplayb = true → payload ≠ [] ∧ payload ≠ [1]) := by
  rw [receivedDisplayb]
  rcases blockDisplayb_cases payload with ⟨fault, failed, unfit⟩ | ⟨fits, blocked | ⟨zeros, visible, blocked⟩⟩
  · rw [failed]
    refine ⟨?_, fun both => absurd both.1 unfit⟩
    rintro ⟨r, ran⟩
    cases ran
  · have ends := @unblockDisplayb_ok_iff ctrl payload
    rw [blocked, ok_bind]
    constructor
    · rintro ⟨r, ran⟩
      obtain ⟨ctrl', unblocked, -⟩ := bind_eq_ok ran
      exact ⟨fits, ends.mp ⟨ctrl', unblocked⟩⟩
    · rintro ⟨-, clear⟩
      obtain ⟨ctrl', unblocked⟩ := ends.mpr clear
      dsimp only
      rw [unblocked]
      exact ⟨_, rfl⟩
  · have long : payload ≠ [] ∧ payload ≠ [1] := by
      constructor
      · rintro rfl
        cases zeros
      · rintro rfl
        cases zeros
    obtain ⟨ctrl', unblocked⟩ := (@unblockDisplayb_ok_iff { ctrl with cantDisplayb := true } payload).mpr fun _ => long
    rw [blocked, ok_bind]
    dsimp only
    rw [unblocked]
    exact ⟨fun _ => ⟨fits, fun _ => long⟩, fun _ => ⟨_, rfl⟩⟩

theorem receivedLogin_ok (payload : Bytes) : ∃ r, ctrl.receivedLogin payload = .ok r := by
  rw [receivedLogin]
  split
  · exact ⟨_, rfl⟩
  rename_i some_
  rw [byteAt_eq (by omega), ok_bind]
  split
  · exact ⟨_, rfl⟩
  split
  · exact ⟨_, rfl⟩
  · exact ⟨_, rfl⟩

theorem keyboardText_ok_iff (payload : Bytes) {size lengthOffset : Nat} (inside : lengthOffset + 4 ≤ size) :
    (∃ text, keyboardText env payload size lengthOffset = .ok text) ↔
      size ≤ payload.length ∧ payload.length = size + ntoh ((payload.drop lengthOffset).take 4) := by
  rw [keyboardText]
  by_cases long : size ≤ payload.length
  · rw [decide_eq_true long, assert_true, ok_bind, read32_eq (inside.trans long), ok_bind]
    by_cases whole : payload.length = size + ntoh ((payload.drop lengthOffset).take 4)
    · rw [decide_eq_true whole, assert_true, ok_bind]
      refine ⟨fun _ => ⟨long, whole⟩, fun _ => ?_⟩
      split
      · rw [field_eq whole.ge]
        exact ⟨_, rfl⟩
      · exact ⟨_, rfl⟩
    · rw [decide_eq_false whole]
      refine ⟨?_, fun fits => absurd fits.2 whole⟩
      rintro ⟨text, ran⟩
      cases ran
  · rw [decide_eq_false long]
    refine ⟨?_, fun fits => absurd fits.1 long⟩
    rintro ⟨text, ran⟩
    cases ran

/-! ## Every message -/

/-- The payload is long enough and consistent, for a handler that does not check it by itself. -/
def PayloadFits (env : CtrlSurroundings) (ctrl : CtrlSession) (msgType : Nat) (payload : Bytes) : Prop :=
  if msgType = ctrlMessageTypeSessionId then
    ctrl.ctrlSessionIdReceived = true ∨ env.logsErrors = false ∨ 2 ≤ payload.length ∨ payload = [0]
  else if msgType = ctrlMessageTypeKeyboardOpen then
    32 ≤ payload.length ∧ payload.length = 32 + ntoh ((payload.drop 28).take 4)
  else if msgType = ctrlMessageTypeKeyboardTextChangeRes then
    40 ≤ payload.length ∧ payload.length = 40 + ntoh ((payload.drop 8).take 4)
  else if msgType = ctrlMessageTypeDisplaya then
    payload ≠ [] ∧ (payload.head? = some 0 → ctrl.cantDisplayb = false → ctrl.displaySink = true)
  else if msgType = ctrlMessageTypeDisplayb then
    ctrl.BlockFits payload ∧ (ctrl.cantDisplayb = true → payload ≠ [] ∧ payload ≠ [1])
  else True

theorem dispatch_ok_iff (room : ctrl.sessionId.length = sessionIdSizeMax) (msgType : Nat) (payload : Bytes) :
    (∃ r, ctrl.dispatch env msgType payload = .ok r) ↔ ctrl.PayloadFits env msgType payload := by
  rw [dispatch, PayloadFits]
  by_cases sessionId : msgType = ctrlMessageTypeSessionId
  · rw [if_pos sessionId, if_pos sessionId]
    exact (bind_pure_ok_iff _ _).trans (receivedSessionId_ok_iff room payload)
  rw [if_neg sessionId, if_neg sessionId]
  by_cases heartbeat : msgType = ctrlMessageTypeHeartbeatReq
  · rw [if_pos heartbeat, heartbeat]
    exact ⟨fun _ => trivial, fun _ => ⟨_, rfl⟩⟩
  rw [if_neg heartbeat]
  by_cases pin : msgType = ctrlMessageTypeLoginPinReq
  · rw [if_pos pin, pin]
    exact ⟨fun _ => trivial, fun _ => ⟨_, rfl⟩⟩
  rw [if_neg pin]
  by_cases login : msgType = ctrlMessageTypeLogin
  · rw [if_pos login, login]
    exact ⟨fun _ => trivial, fun _ => receivedLogin_ok payload⟩
  rw [if_neg login]
  by_cases keyboardOpen : msgType = ctrlMessageTypeKeyboardOpen
  · rw [if_pos keyboardOpen, if_pos keyboardOpen, receivedKeyboardOpen]
    exact (bind_pure_ok_iff _ _).trans (@keyboardText_ok_iff env payload sizeofCtrlKeyboardOpenMessage 0x1c (by decide))
  rw [if_neg keyboardOpen, if_neg keyboardOpen]
  by_cases textChange : msgType = ctrlMessageTypeKeyboardTextChangeRes
  · rw [if_pos textChange, if_pos textChange, receivedKeyboardTextChange]
    exact (bind_pure_ok_iff _ _).trans (@keyboardText_ok_iff env payload sizeofCtrlKeyboardTextResponseMessage 8 (by decide))
  rw [if_neg textChange, if_neg textChange]
  by_cases keyboardClose : msgType = ctrlMessageTypeKeyboardCloseRemote
  · rw [if_pos keyboardClose, keyboardClose]
    exact ⟨fun _ => trivial, fun _ => ⟨_, rfl⟩⟩
  rw [if_neg keyboardClose]
  by_cases displaya : msgType = ctrlMessageTypeDisplaya
  · rw [if_pos displaya, if_pos displaya]
    exact receivedDisplaya_ok_iff payload
  rw [if_neg displaya, if_neg displaya]
  by_cases displayb : msgType = ctrlMessageTypeDisplayb
  · rw [if_pos displayb, if_pos displayb]
    exact receivedDisplayb_ok_iff payload
  rw [if_neg displayb, if_neg displayb]
  refine ⟨fun _ => trivial, fun _ => ?_⟩
  split
  · split
    · exact ⟨_, rfl⟩
    · exact ⟨_, rfl⟩
  · exact ⟨_, rfl⟩

/-- The handlers stay inside the payload and reach no failing assertion exactly if the decrypted payload fits. -/
theorem messageReceived_ok_iff (env : CtrlSurroundings) {ctrl : CtrlSession} (room : ctrl.sessionId.length = sessionIdSizeMax)
    (msgType : Nat) (payload : Bytes) : (∃ r, ctrl.messageReceived env msgType payload = .ok r) ↔
      ∀ plain, ctrl.decrypted env payload = some plain → ctrl.PayloadFits env msgType plain := by
  rw [messageReceived]
  cases got : ctrl.decrypted env payload with
  | none => exact ⟨fun _ _ => nofun, fun _ => ⟨_, rfl⟩⟩
  | some plain =>
      have fits : (∀ plain', some plain = some plain' → ctrl.PayloadFits env msgType plain') ↔ ctrl.PayloadFits env msgType plain :=
        ⟨fun all => all plain rfl, fun fits _ same => Option.some.inj same ▸ fits⟩
      rw [fits]
      dsimp only
      split
      · exact dispatch_ok_iff room msgType plain
      · exact @dispatch_ok_iff env { ctrl with cryptCounterRemote := ctrl.cryptCounterRemote + 1 } room msgType plain

/-- A cipher that leaves the payload as it is, and an error log. -/
def plainSurroundings : CtrlSurroundings where
  cipher := ⟨fun _ payload => some payload, fun _ _ _ same => Option.some.inj same ▸ rfl⟩
  logsErrors := true
  malloc := true
  timeSeconds := 12345
  randomBytes := .ok (List.replicate 48 7)
  stack := List.replicate 80 0
  time_small := by decide
  length_random := fun _ same => Except.ok.inj same ▸ rfl
  length_stack := rfl

/-- The session before its first message. -/
def first : CtrlSession := ⟨0, false, false, false, false, false, false, true, true, true, List.replicate 80 0⟩

/-- A keyboard is opened with the text `hi`. -/
theorem messageReceived_ok_keyboard : ∃ r, first.messageReceived plainSurroundings ctrlMessageTypeKeyboardOpen
    (List.replicate 28 0 ++ [0, 0, 0, 2, 0x68, 0x69]) = .ok r :=
  (messageReceived_ok_iff plainSurroundings rfl _ _).mpr fun _ same => Option.some.inj same ▸ by
    rw [PayloadFits, if_neg (by decide), if_pos rfl]
    decide

/-- The message that the screen can be shown again, without a payload. -/
theorem messageReceived_emptyDisplaya :
    ¬ ∃ r, first.messageReceived plainSurroundings ctrlMessageTypeDisplaya [] = .ok r := by
  rintro ⟨r, ran⟩
  cases ran

end CtrlSession
end Chiaki
