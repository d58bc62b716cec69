import Chiaki.Takion.Packet

/-!
# Sending control messages

`ctrl_message_send` for both transports. Over RUDP the message is put together in a buffer whose size is kept in a
`uint8_t`.
-/

namespace Chiaki
open Memory

/-- `chiaki_rpcrypt_encrypt` with the counter of a message. -/
structure CtrlEncryption where
  encrypt : Nat → Bytes → Except ErrorCode Bytes
  length_encrypt : ∀ counter payload enc, encrypt counter payload = .ok enc → enc.length = payload.length

def ctrlMessageTypeLoginPinRep : Nat := 0x8004
def ctrlMessageTypeKeyboardTextChangeReq : Nat := 0x23

/-- What the calls of a send meet. `rudp` is the result of `chiaki_rudp_send_ctrl_message`. -/
structure CtrlSendOutcome where
  malloc : Bool
  rudp : ErrorCode
  sendHeader : Bool
  sendPayload : Bool

/-- What has been given to the transport, in order, and the result. -/
structure CtrlSent where
  cryptCounterLocal : Nat
  handed : List Bytes
  err : ErrorCode

/-- The payload is encrypted, if there is any: the counter after that, and `enc`. -/
def ctrlEncrypt (cipher : CtrlEncryption) (rudp malloc : Bool) (counter type : Nat) (payload : Bytes) :
    Nat × Except ErrorCode (Option Bytes) :=
  if payload.length = 0 then (counter, .ok none)
  else if !malloc then (counter, .error .memory)
  else
    -- `local_counter - 1`, with `local_counter` an `uint16_t`
    let used := if rudp && type = ctrlMessageTypeLoginPinRep then (counter % 2 ^ 16 + 2 ^ 64 - 1) % 2 ^ 64 else counter
    ((counter + 1) % 2 ^ 64, (cipher.encrypt used payload).map some)

def ctrlHeader (type payloadSize : Nat) : Bytes := htonl payloadSize ++ htons type ++ htons 0

/-- `ctrl_message_send`. -/
def ctrlMessageSend (cipher : CtrlEncryption) (rudp : Bool) (o : CtrlSendOutcome) (counter type : Nat)
    (payload : Option Bytes) : Checked CtrlSent :=
  let payloadSize := (payload.getD []).length
  let r := ctrlEncrypt cipher rudp o.malloc counter type (payload.getD [])
  match r.2 with
  | .error err => pure ⟨r.1, [], err⟩
  | .ok enc =>
      let header := ctrlHeader type payloadSize
      if rudp then do
        let bufSize := (8 + payloadSize) % 2 ^ 8
        let buf ← setField (List.replicate bufSize 0) 0 header
        let buf ← setField buf 8 (enc.getD [])
        pure ⟨r.1, [buf], o.rudp⟩
      else if !o.sendHeader then pure ⟨r.1, [header], .network⟩
      else
        match enc with
        | none => pure ⟨r.1, [header], .success⟩
        | some enc => pure ⟨r.1, [header, enc], if o.sendPayload then .success else .network⟩

/-- The payload of `chiaki_ctrl_keyboard_set_text`, after the counter has been increased. -/
def keyboardTextPayload (counter : Nat) (text : Bytes) : Bytes :=
  htonl counter ++ htonl text.length ++ List.replicate 0x18 0 ++ htonl text.length ++ text

/-! ## Both transports -/

/-- The transports are given the same bytes, a header and the whole payload, and the counter is the same. -/
structure SentAlike (cipher : CtrlEncryption) (counter type : Nat) (payload : Bytes) (rudp tcp : CtrlSent) : Prop where
  bytes : rudp.handed.flatten = tcp.handed.flatten
  whole : tcp.handed ≠ [] → ∃ enc, enc.length = payload.length ∧
    tcp.handed.flatten = ctrlHeader type payload.length ++ enc ∧
    (payload ≠ [] → cipher.encrypt counter payload = .ok enc)
  counter : rudp.cryptCounterLocal = tcp.cryptCounterLocal

/-- Neither transport leaves the buffer. -/
def TransportIndependent (cipher : CtrlEncryption) (o : CtrlSendOutcome) (counter type : Nat) (payload : Option Bytes) :
    Prop :=
  ∃ rudp tcp, ctrlMessageSend cipher true o counter type payload = .ok rudp ∧
    ctrlMessageSend cipher false o counter type payload = .ok tcp ∧
    SentAlike cipher counter type (payload.getD []) rudp tcp

/-- There is something to encrypt, and it could not be. -/
def Unencrypted (cipher : CtrlEncryption) (o : CtrlSendOutcome) (counter : Nat) (payload : Bytes) : Prop :=
  payload ≠ [] ∧ (o.malloc = false ∨ ∃ err, cipher.encrypt counter payload = .error err)

@[simp] theorem length_ctrlHeader (type payloadSize : Nat) : (ctrlHeader type payloadSize).length = 8 := rfl

section
variable {cipher : CtrlEncryption} {o : CtrlSendOutcome} {counter type : Nat}

theorem ctrlEncrypt_rudp (other : type ≠ ctrlMessageTypeLoginPinRep) (malloc : Bool) (payload : Bytes) :
    ctrlEncrypt cipher true malloc counter type payload = ctrlEncrypt cipher false malloc counter type payload := by
  simp [ctrlEncrypt, other]

theorem ctrlEncrypt_cases (malloc : Bool) (payload : Bytes) :
    (payload = [] ∧ ctrlEncrypt cipher false malloc counter type payload = (counter, .ok none)) ∨
    (payload ≠ [] ∧ (malloc = false ∨ ∃ err, cipher.encrypt counter payload = .error err) ∧
      ∃ counter' err, ctrlEncrypt cipher false malloc counter type payload = (counter', .error err)) ∨
    (payload ≠ [] ∧ malloc = true ∧ ∃ enc, cipher.encrypt counter payload = .ok enc ∧
      ctrlEncrypt cipher false malloc counter type payload = ((counter + 1) % 2 ^ 64, .ok (some enc))) := by
  cases payload with
  | nil => exact .inl ⟨rfl, rfl⟩
  | cons first rest =>
      cases malloc with
      | false => exact .inr (.inl ⟨List.cons_ne_nil first rest, .inl rfl, _, _, rfl⟩)
      | true =>
          cases encrypted : cipher.encrypt counter (first :: rest) with
          | error err =>
              refine .inr (.inl ⟨List.cons_ne_nil first rest, .inr ⟨err, rfl⟩, (counter + 1) % 2 ^ 64, err, ?_⟩)
              simp [ctrlEncrypt, encrypted, Except.map]
          | ok enc =>
              refine .inr (.inr ⟨List.cons_ne_nil first rest, rfl, enc, rfl, ?_⟩)
              simp [ctrlEncrypt, encrypted, Except.map]

theorem buffered {header enc : Bytes} (eight : header.length = 8) (small : enc.length ≤ 247) :
    ∃ headed, setField (List.replicate ((8 + enc.length) % 2 ^ 8) 0) 0 header = .ok headed ∧
      setField headed 8 enc = .ok (header ++ enc) := by
  have size : (8 + enc.length) % 2 ^ 8 = 8 + enc.length := Nat.mod_eq_of_lt (by omega)
  have first := write_behind [] (List.replicate (8 + enc.length) 0) header (by rw [eight, List.length_replicate]; omega)
  have second := write_behind header (List.replicate enc.length 0) enc (by rw [List.length_replicate])
  rw [List.nil_append, List.nil_append, eight, List.drop_replicate, Nat.add_sub_cancel_left] at first
  rw [eight, List.drop_replicate, Nat.sub_self, List.replicate_zero, List.append_nil] at second
  rw [size]
  exact ⟨_, congrArg inBounds first, congrArg inBounds second⟩

theorem unbuffered {header enc headed buf : Bytes}
    (first : setField (List.replicate ((8 + enc.length) % 2 ^ 8) 0) 0 header = .ok headed)
    (second : setField headed 8 enc = .ok buf) : enc.length ≤ 247 := by
  have narrow : (8 + enc.length) % 2 ^ 8 < 2 ^ 8 := Nat.mod_lt _ (by decide)
  have size : headed.length = (8 + enc.length) % 2 ^ 8 := by
    rw [length_of_write (write_of_setField first), List.length_replicate]
  by_contra long
  rw [setField, write, if_neg (by omega)] at second
  cases second

theorem TransportIndependent.small {payload : Option Bytes} (other : type ≠ ctrlMessageTypeLoginPinRep)
    (encrypts : ¬ Unencrypted cipher o counter (payload.getD []))
    (independent : TransportIndependent cipher o counter type payload) : (payload.getD []).length ≤ 247 := by
  unfold TransportIndependent ctrlMessageSend at independent
  rw [ctrlEncrypt_rudp other] at independent
  generalize payload.getD [] = payload at *
  rcases @ctrlEncrypt_cases cipher counter type o.malloc payload with
    ⟨rfl, -⟩ | ⟨some_, failed, -⟩ | ⟨some_, malloc, enc, plain, encrypted⟩
  · exact Nat.zero_le 247
  · exact absurd ⟨some_, failed⟩ encrypts
  · rw [encrypted, ← cipher.length_encrypt _ _ _ plain] at independent
    obtain ⟨rudp, tcp, overRudp, -, -⟩ := independent
    obtain ⟨headed, first, overRudp⟩ := bind_eq_ok overRudp
    obtain ⟨buf, second, -⟩ := bind_eq_ok overRudp
    rw [← cipher.length_encrypt _ _ _ plain]
    exact unbuffered first second

/-- The transports agree exactly on the messages that fit into the buffer, and when nothing is sent. -/
theorem transportIndependent_iff (cipher : CtrlEncryption) {o : CtrlSendOutcome} (sent : o.sendHeader = true)
    (counter : Nat) {type : Nat} (other : type ≠ ctrlMessageTypeLoginPinRep) (payload : Option Bytes) :
    TransportIndependent cipher o counter type payload ↔
      (payload.getD []).length ≤ 247 ∨ Unencrypted cipher o counter (payload.getD []) := by
  have small := @TransportIndependent.small cipher o counter type payload other
  unfold TransportIndependent ctrlMessageSend at small ⊢
  rw [ctrlEncrypt_rudp other, sent] at small ⊢
  generalize payload.getD [] = payload at *
  rcases @ctrlEncrypt_cases cipher counter type o.malloc payload with
    ⟨rfl, encrypted⟩ | ⟨some_, failed, counter', err, encrypted⟩ | ⟨some_, malloc, enc, plain, encrypted⟩
  · rw [encrypted]
    refine iff_of_true ⟨_, _, rfl, rfl, ?_⟩ (.inl (by decide))
    exact ⟨rfl, fun _ => ⟨[], rfl, rfl, fun none => absurd rfl none⟩, rfl⟩
  · rw [encrypted]
    refine iff_of_true ⟨_, _, rfl, rfl, ?_⟩ (.inr ⟨some_, failed⟩)
    exact ⟨rfl, fun none => absurd rfl none, rfl⟩
  · have encrypts : ¬ Unencrypted cipher o counter payload := by
      rintro ⟨-, unallocated | ⟨err, failed⟩⟩
      · rw [malloc] at unallocated
        cases unallocated
      · rw [plain] at failed
        cases failed
    constructor
    · intro independent
      exact .inl (small encrypts independent)
    · rintro (small | unencrypted)
      · rw [encrypted, ← cipher.length_encrypt _ _ _ plain]
        rw [← cipher.length_encrypt _ _ _ plain] at small
        obtain ⟨headed, first, second⟩ := buffered (length_ctrlHeader type enc.length) small
        refine ⟨⟨(counter + 1) % 2 ^ 64, [ctrlHeader type enc.length ++ enc], o.rudp⟩, _, ?_, rfl, ?_⟩
        · dsimp only
          rw [if_pos rfl, first, ok_bind, Option.getD_some, second, ok_bind]
          rfl
        · refine ⟨?_, fun _ => ⟨enc, cipher.length_encrypt _ _ _ plain, ?_, fun _ => plain⟩, rfl⟩
          · simp
          · rw [← cipher.length_encrypt _ _ _ plain]
            simp
      · exact absurd unencrypted encrypts

end

theorem length_keyboardTextPayload (counter : Nat) (text : Bytes) :
    (keyboardTextPayload counter text).length = 36 + text.length := by
  simp only [keyboardTextPayload, List.length_append, length_htonl, List.length_replicate]

/-- Each byte is encrypted as itself. -/
def plainEncryption : CtrlEncryption := ⟨fun _ payload => .ok payload, fun _ _ _ same => Except.ok.inj same ▸ rfl⟩

def ctrlSendsAll : CtrlSendOutcome := ⟨true, .success, true, true⟩

theorem transportIndependent_of_text : TransportIndependent plainEncryption ctrlSendsAll 5
    ctrlMessageTypeKeyboardTextChangeReq (some (keyboardTextPayload 1 [0x68, 0x69])) ↔
    (keyboardTextPayload 1 [0x68, 0x69]).length ≤ 247 ∨
      Unencrypted plainEncryption ctrlSendsAll 5 (keyboardTextPayload 1 [0x68, 0x69]) :=
  transportIndependent_iff plainEncryption rfl 5 (by decide) (some (keyboardTextPayload 1 [0x68, 0x69]))

/-- A text of 212 bytes leaves the buffer. -/
theorem not_transportIndependent : ¬ TransportIndependent plainEncryption ctrlSendsAll 5
    ctrlMessageTypeKeyboardTextChangeReq (some (keyboardTextPayload 1 (List.replicate 212 0x61))) := by
  intro independent
  have small : (keyboardTextPayload 1 (List.replicate 212 0x61)).length ≤ 247 := by
    refine independent.small (by decide) ?_
    rintro ⟨-, unallocated | ⟨err, failed⟩⟩
    · cases unallocated
    · cases failed
  rw [length_keyboardTextPayload, List.length_replicate] at small
  omega

end Chiaki
