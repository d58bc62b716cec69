import Chiaki.Lib.Machine
import Chiaki.Takion.Packet

/-!
# Receiving control messages

The receive buffer of `ctrl_thread_func` when the connection is TCP. The thread parses the buffer as long as there
are messages in it, then waits for the socket and reads into the free part of the buffer.
-/

namespace Chiaki
open Memory

/-- What `ctrl_message_received` is called with. The payload is still encrypted. -/
structure CtrlMessage where
  msgType : Nat
  payload : Bytes
  deriving DecidableEq

/-- `chiaki_rpcrypt_decrypt` with the counter of a message. It works in place. -/
structure CtrlCipher where
  decrypt : Nat → Bytes → Option Bytes
  length_decrypt : ∀ counter payload plain, decrypt counter payload = some plain → plain.length = payload.length

/-- A cipher of which every call fails. -/
def CtrlCipher.failing : CtrlCipher := ⟨fun _ _ => none, fun _ _ _ h => by cases h⟩

/-- Where the thread is: in the inner loop, at its `select`, or out of the loops. -/
inductive CtrlPhase where
  | parsing
  | selecting
  | left
  deriving DecidableEq, Repr

def ctrlRecvBufSize : Nat := 512

structure CtrlReceiver where
  recvBuf : Bytes
  recvBufSize : Nat
  cryptCounterRemote : Nat
  phase : CtrlPhase

namespace CtrlReceiver

/-- The receiver when `ctrl_connect` returns, with what came after the header of the response. -/
def start (received : Bytes) (counter : Nat) : CtrlReceiver where
  recvBuf := received ++ List.replicate (ctrlRecvBufSize - received.length) 0
  recvBufSize := received.length
  cryptCounterRemote := counter
  phase := .parsing

/-- The part of `recv_buf` that is in use. -/
def received (ctrl : CtrlReceiver) : Bytes := ctrl.recvBuf.take ctrl.recvBufSize

/-- What `ctrl_message_received` does to the buffer it gets a part of. -/
def decryptPayload (cipher : CtrlCipher) (ctrl : CtrlReceiver) (payload : Bytes) : Checked CtrlReceiver :=
  if payload.length = 0 then pure ctrl
  else
    match cipher.decrypt ctrl.cryptCounterRemote payload with
    | none => pure { ctrl with cryptCounterRemote := ctrl.cryptCounterRemote + 1 }
    | some plain => do
        let recvBuf ← setField ctrl.recvBuf 8 plain
        pure { ctrl with recvBuf := recvBuf, cryptCounterRemote := ctrl.cryptCounterRemote + 1 }

/-- The rest of the buffer moves to its front. The source is computed in 64 bits. -/
def shift (ctrl : CtrlReceiver) (payloadSize size : Nat) : Checked Bytes :=
  if size > 0 then inBounds (move ctrl.recvBuf 0 (8 + payloadSize) size) else pure ctrl.recvBuf

/-- The loop once the header is read. The size of the message is computed in 32 bits. -/
def takeMessage (cipher : CtrlCipher) (ctrl : CtrlReceiver) (payloadSize : Nat) :
    Checked (CtrlReceiver × Option CtrlMessage) :=
  let total := (8 + payloadSize) % 2 ^ 32
  if ctrl.recvBufSize < total then
    pure ({ ctrl with phase := if total > ctrlRecvBufSize then .left else .selecting }, none)
  else do
    let msgType ← read16 ctrl.recvBuf 4
    let payload ← field ctrl.recvBuf 8 payloadSize
    let ctrl ← ctrl.decryptPayload cipher payload
    let recvBuf ← ctrl.shift payloadSize (ctrl.recvBufSize - total)
    pure ({ ctrl with recvBuf := recvBuf, recvBufSize := ctrl.recvBufSize - total }, some ⟨msgType, payload⟩)

/-- One turn of the inner loop of `ctrl_thread_func`. -/
def turn (cipher : CtrlCipher) (ctrl : CtrlReceiver) : Checked (CtrlReceiver × Option CtrlMessage) :=
  if ctrl.recvBufSize < 8 then pure ({ ctrl with phase := .selecting }, none)
  else do
    let payloadSize ← read32 ctrl.recvBuf 0
    ctrl.takeMessage cipher payloadSize

/-- `recv` into the free part of the buffer. Nothing is read when the connection is closed. -/
def recv (ctrl : CtrlReceiver) (chunk : Bytes) : Checked CtrlReceiver :=
  if chunk.length = 0 then pure { ctrl with phase := .left }
  else do
    let recvBuf ← setField ctrl.recvBuf ctrl.recvBufSize chunk
    pure { ctrl with recvBuf := recvBuf, recvBufSize := ctrl.recvBufSize + chunk.length, phase := .parsing }

/-- The inner loop, for at most some turns. -/
def drain (cipher : CtrlCipher) : (fuel : Nat) → CtrlReceiver → Checked (CtrlReceiver × List CtrlMessage)
  | 0, ctrl => if ctrl.phase = .parsing then .error .endless else pure (ctrl, [])
  | fuel + 1, ctrl =>
      if ctrl.phase = .parsing then do
        let r ← ctrl.turn cipher
        let rest ← drain cipher fuel r.1
        pure (rest.1, r.2.toList ++ rest.2)
      else pure (ctrl, [])

/-- The inner loop. A turn takes at least one byte away or ends it. -/
def parse (cipher : CtrlCipher) (ctrl : CtrlReceiver) : Checked (CtrlReceiver × List CtrlMessage) :=
  ctrl.drain cipher (ctrl.recvBufSize + 1)

/-- The outer loop, from one `select` to the next one. -/
def accept (cipher : CtrlCipher) (ctrl : CtrlReceiver) (chunk : Bytes) : Checked (CtrlReceiver × List CtrlMessage) :=
  if ctrl.phase = .selecting then do
    let ctrl ← ctrl.recv chunk
    ctrl.parse cipher
  else pure (ctrl, [])

/-- `recv` reads at most what is free, and at least one byte while the connection is open. -/
def Fits (ctrl : CtrlReceiver) (chunk : Bytes) : Prop :=
  0 < chunk.length ∧ chunk.length ≤ ctrlRecvBufSize - ctrl.recvBufSize

instance (ctrl : CtrlReceiver) (chunk : Bytes) : Decidable (ctrl.Fits chunk) := inferInstanceAs (Decidable (_ ∧ _))

/-- The thread from its start on, with the chunks that it reads. -/
def session (cipher : CtrlCipher) (received : Bytes) (counter : Nat) (chunks : List Bytes) :
    Checked (CtrlReceiver × List CtrlMessage) := do
  let first ← (start received counter).parse cipher
  let rest ← Machine.run (accept cipher) first.1 chunks
  pure (rest.1, first.2 ++ rest.2.flatten)

/-! ## The buffer -/

structure Sized (ctrl : CtrlReceiver) : Prop where
  length : ctrl.recvBuf.length = ctrlRecvBufSize
  size : ctrl.recvBufSize ≤ ctrlRecvBufSize

theorem sized_start {received : Bytes} (fits : received.length ≤ ctrlRecvBufSize) (counter : Nat) :
    (start received counter).Sized := by
  refine ⟨?_, fits⟩
  simp only [start, List.length_append, List.length_replicate]
  omega

theorem received_start (received : Bytes) (counter : Nat) : (start received counter).received = received := by
  simp [start, CtrlReceiver.received]

section Turn

variable {cipher : CtrlCipher} {ctrl : CtrlReceiver}

theorem Sized.length_received (h : ctrl.Sized) : ctrl.received.length = ctrl.recvBufSize := by
  have := h.size
  simp only [received, List.length_take, h.length]
  omega

theorem decryptPayload_ok (cipher : CtrlCipher) (ctrl : CtrlReceiver) (payload : Bytes) (inside : 8 + payload.length ≤ ctrl.recvBuf.length) :
    ∃ ctrl', ctrl.decryptPayload cipher payload = .ok ctrl' ∧ ctrl'.recvBuf.length = ctrl.recvBuf.length ∧
      ctrl'.recvBufSize = ctrl.recvBufSize ∧ ctrl'.phase = ctrl.phase ∧
      ∀ i, 8 + payload.length ≤ i → ctrl'.recvBuf[i]? = ctrl.recvBuf[i]? := by
  unfold decryptPayload
  by_cases empty : payload.length = 0
  · rw [if_pos empty]
    exact ⟨ctrl, rfl, rfl, rfl, rfl, fun _ _ => rfl⟩
  rw [if_neg empty]
  cases decrypted : cipher.decrypt ctrl.cryptCounterRemote payload with
  | none => exact ⟨_, rfl, rfl, rfl, rfl, fun _ _ => rfl⟩
  | some plain =>
      have length := cipher.length_decrypt _ _ _ decrypted
      obtain ⟨recvBuf, written⟩ := exists_write ctrl.recvBuf plain 8 (by omega)
      simp only [setField, written, inBounds_some, ok_bind]
      refine ⟨_, rfl, length_of_write written, rfl, rfl, fun i beyond => ?_⟩
      rw [getElem?_of_write written, if_neg (by omega)]

theorem shift_ok (ctrl : CtrlReceiver) (payloadSize size : Nat) (inside : 8 + payloadSize + size ≤ ctrl.recvBuf.length) :
    ∃ recvBuf, ctrl.shift payloadSize size = .ok recvBuf ∧ recvBuf.length = ctrl.recvBuf.length ∧
      recvBuf.take size = (ctrl.recvBuf.drop (8 + payloadSize)).take size := by
  unfold shift
  by_cases left : size > 0
  · obtain ⟨recvBuf, moved⟩ := exists_move ctrl.recvBuf 0 (8 + payloadSize) size inside (Nat.zero_le _)
    rw [if_pos left, moved]
    refine ⟨recvBuf, rfl, length_of_move moved, ?_⟩
    apply List.ext_getElem?
    intro i
    by_cases bound : i < size
    · rw [List.getElem?_take_of_lt bound, List.getElem?_take_of_lt bound, getElem?_of_move moved,
        if_pos (by omega), List.getElem?_drop, Nat.sub_zero]
    · rw [List.getElem?_eq_none, List.getElem?_eq_none] <;> simp only [List.length_take] <;> omega
  · obtain rfl : size = 0 := by omega
    exact ⟨ctrl.recvBuf, rfl, rfl, by simp⟩

/-- A message whose size does not wrap and that is there as a whole is taken from the buffer. -/
theorem takeMessage_whole (cipher : CtrlCipher) (h : ctrl.Sized) {payloadSize : Nat} (whole : 8 + payloadSize ≤ ctrl.recvBufSize) :
    ∃ ctrl', ctrl.takeMessage cipher payloadSize =
        .ok (ctrl', some ⟨ntoh ((ctrl.recvBuf.drop 4).take 2), (ctrl.recvBuf.drop 8).take payloadSize⟩) ∧
      ctrl'.Sized ∧ ctrl'.recvBufSize = ctrl.recvBufSize - (8 + payloadSize) ∧ ctrl'.phase = ctrl.phase ∧
      ctrl'.received = ctrl.received.drop (8 + payloadSize) := by
  have length := h.length
  have size := h.size
  unfold ctrlRecvBufSize at length size
  have total : (8 + payloadSize) % 2 ^ 32 = 8 + payloadSize := Nat.mod_eq_of_lt (by omega)
  have payloadLength : ((ctrl.recvBuf.drop 8).take payloadSize).length = payloadSize := by
    simp only [List.length_take, List.length_drop]
    omega
  obtain ⟨ctrl₁, decrypted, length₁, size₁, phase₁, beyond⟩ :=
    decryptPayload_ok cipher ctrl ((ctrl.recvBuf.drop 8).take payloadSize) (by omega)
  obtain ⟨recvBuf, shifted, length₂, moved⟩ :=
    shift_ok ctrl₁ payloadSize (ctrl₁.recvBufSize - (8 + payloadSize)) (by omega)
  have same : ctrl₁.recvBuf.drop (8 + payloadSize) = ctrl.recvBuf.drop (8 + payloadSize) := by
    apply List.ext_getElem?
    intro i
    rw [List.getElem?_drop, List.getElem?_drop, beyond _ (by omega)]
  simp only [takeMessage, total]
  rw [if_neg (by omega), read16_eq (by omega), field_eq (by omega)]
  simp only [ok_bind, decrypted, shifted]
  refine ⟨_, rfl, ⟨length₂.trans (length₁.trans h.length), ?_⟩, by rw [size₁], phase₁, ?_⟩
  · change ctrl₁.recvBufSize - (8 + payloadSize) ≤ ctrlRecvBufSize
    unfold ctrlRecvBufSize
    omega
  · change recvBuf.take (ctrl₁.recvBufSize - (8 + payloadSize)) = (ctrl.recvBuf.take ctrl.recvBufSize).drop _
    rw [moved, same, size₁, List.drop_take]

theorem recv_ok (h : ctrl.Sized) {chunk : Bytes} (fits : ctrl.Fits chunk) :
    ∃ ctrl', ctrl.recv chunk = .ok ctrl' ∧ ctrl'.Sized ∧ ctrl'.phase = .parsing ∧
      ctrl'.received = ctrl.received ++ chunk := by
  obtain ⟨nonempty, room⟩ := fits
  have length := h.length
  have size := h.size
  obtain ⟨recvBuf, written⟩ := exists_write ctrl.recvBuf chunk ctrl.recvBufSize (by omega)
  rw [recv, if_neg (by omega), setField, written]
  refine ⟨_, rfl, ⟨(length_of_write written).trans length, ?_⟩, rfl, ?_⟩
  · change ctrl.recvBufSize + chunk.length ≤ ctrlRecvBufSize
    omega
  · change recvBuf.take (ctrl.recvBufSize + chunk.length) = ctrl.received ++ chunk
    rw [write_eq_some (by omega)] at written
    obtain rfl := Option.some.inj written
    rw [List.take_left' (by rw [List.length_append, List.length_take, Nat.min_eq_left (by omega)])]
    rfl

end Turn

end CtrlReceiver

end Chiaki
