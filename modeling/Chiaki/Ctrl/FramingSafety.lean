import Chiaki.Ctrl.Receive

/-!
# Control streams with any content

The loop is safe exactly as long as it reads no header whose message is so long that its length wraps in 32 bits.
-/

namespace Chiaki
open Memory

/-- One turn of the inner loop, or a read from the socket. -/
inductive CtrlInput where
  | turn
  | recv (chunk : Bytes)

namespace CtrlReceiver

/-- The thread does what is next for it, and nothing else. -/
def step (cipher : CtrlCipher) (ctrl : CtrlReceiver) : CtrlInput → Checked (CtrlReceiver × Option CtrlMessage)
  | .turn => if ctrl.phase = .parsing then ctrl.turn cipher else pure (ctrl, none)
  | .recv chunk => if ctrl.phase = .selecting then (ctrl.recv chunk).map (·, none) else pure (ctrl, none)

/-- `recv` reads at most what is free. -/
def Reads (ctrl : CtrlReceiver) : CtrlInput → Prop
  | .turn => True
  | .recv chunk => chunk.length ≤ ctrlRecvBufSize - ctrl.recvBufSize

instance (ctrl : CtrlReceiver) : (input : CtrlInput) → Decidable (ctrl.Reads input)
  | .turn => inferInstanceAs (Decidable True)
  | .recv _ => inferInstanceAs (Decidable (_ ≤ _))

/-- The size in the header at the front of the buffer. -/
def payloadSize (ctrl : CtrlReceiver) : Nat := ntoh (ctrl.recvBuf.take 4)

/-- The thread is about to look at a header. -/
def AtHeader (ctrl : CtrlReceiver) (input : CtrlInput) : Prop :=
  input = .turn ∧ ctrl.phase = .parsing ∧ 8 ≤ ctrl.recvBufSize

/-- The payload of a message that is passed on has been received, the message is taken off the buffer as a whole,
and a message that can never fit makes the thread leave its loop. -/
structure TurnsSafely (cipher : CtrlCipher) (ctrl : CtrlReceiver) : Prop where
  message : ∃ ctrl' message, ctrl.turn cipher = .ok (ctrl', message) ∧
    (∀ m, message = some m → 8 + ctrl.payloadSize ≤ ctrl.recvBufSize ∧
      m.payload = (ctrl.received.drop 8).take ctrl.payloadSize ∧
      ctrl'.recvBufSize + (8 + ctrl.payloadSize) = ctrl.recvBufSize) ∧
    (ctrlRecvBufSize < 8 + ctrl.payloadSize → message = none ∧ ctrl'.phase = .left)

def Safe (cipher : CtrlCipher) (ctrl : CtrlReceiver) (input : CtrlInput) : Prop :=
  ctrl.AtHeader input → ctrl.TurnsSafely cipher

/-- The length of the message does not wrap. -/
def Unwrapped (ctrl : CtrlReceiver) (input : CtrlInput) : Prop :=
  ctrl.AtHeader input → 8 + ctrl.payloadSize < 2 ^ 32

instance (ctrl : CtrlReceiver) : (input : CtrlInput) → Decidable (ctrl.Unwrapped input)
  | .turn => decidable_of_iff (ctrl.phase = .parsing ∧ 8 ≤ ctrl.recvBufSize → 8 + ctrl.payloadSize < 2 ^ 32)
      ⟨fun h at_ => h at_.2, fun h at_ => h ⟨rfl, at_⟩⟩
  | .recv _ => .isTrue fun at_ => by cases at_.1

section Turn

variable {cipher : CtrlCipher} {ctrl : CtrlReceiver}

theorem payloadSize_lt (ctrl : CtrlReceiver) : ctrl.payloadSize < 2 ^ 32 := by
  refine Nat.lt_of_lt_of_le (ntoh_lt _) (Nat.pow_le_pow_right (by decide) ?_)
  rw [List.length_take]
  omega

theorem turn_header (h : ctrl.Sized) (long : 8 ≤ ctrl.recvBufSize) :
    ctrl.turn cipher = ctrl.takeMessage cipher ctrl.payloadSize := by
  have length := h.length
  have size := h.size
  rw [turn, if_neg (by omega), read32_eq (by omega)]
  rfl

/-- With a length that wraps, the loop calls `ctrl_message_received` with a payload outside the buffer. -/
theorem turn_wrapped (h : ctrl.Sized) (long : 8 ≤ ctrl.recvBufSize) (wrapped : 2 ^ 32 ≤ 8 + ctrl.payloadSize) :
    ctrl.turn cipher = .error .outOfBounds := by
  have length := h.length
  have size := h.size
  have bound := ctrl.payloadSize_lt
  have total : (8 + ctrl.payloadSize) % 2 ^ 32 < 8 := by omega
  unfold ctrlRecvBufSize at length size
  rw [turn_header h long]
  simp only [takeMessage]
  have outside : ¬ 8 + ctrl.payloadSize ≤ ctrl.recvBuf.length := by omega
  have unread : Memory.read ctrl.recvBuf 8 ctrl.payloadSize = none := if_neg outside
  rw [if_neg (by omega), read16_eq (by omega), ok_bind, field, unread]
  rfl

theorem turn_waits (h : ctrl.Sized) (long : 8 ≤ ctrl.recvBufSize) (unwrapped : 8 + ctrl.payloadSize < 2 ^ 32)
    (part : ctrl.recvBufSize < 8 + ctrl.payloadSize) :
    ctrl.turn cipher =
      .ok ({ ctrl with phase := if 8 + ctrl.payloadSize > ctrlRecvBufSize then .left else .selecting }, none) := by
  rw [turn_header h long]
  simp only [takeMessage, Nat.mod_eq_of_lt unwrapped]
  rw [if_pos part]
  rfl

theorem turnsSafely_iff (h : ctrl.Sized) (long : 8 ≤ ctrl.recvBufSize) :
    ctrl.TurnsSafely cipher ↔ 8 + ctrl.payloadSize < 2 ^ 32 := by
  constructor
  · rintro ⟨_, _, turned, -⟩
    by_contra wrapped
    rw [turn_wrapped h long (Nat.le_of_not_lt wrapped)] at turned
    cases turned
  · intro unwrapped
    by_cases whole : 8 + ctrl.payloadSize ≤ ctrl.recvBufSize
    · obtain ⟨ctrl', taken, -, size, -, -⟩ := takeMessage_whole cipher h whole
      refine ⟨ctrl', _, (turn_header h long).trans taken, ?_, fun never => ?_⟩
      · rintro m same
        cases same
        refine ⟨whole, ?_, by omega⟩
        rw [received, List.drop_take, List.take_take, Nat.min_eq_left (by omega)]
      · have := h.size
        omega
    · refine ⟨_, none, turn_waits h long unwrapped (Nat.lt_of_not_le whole), fun m same => ?_, fun never => ?_⟩
      · cases same
      · exact ⟨rfl, if_pos never⟩

theorem Sized.step (h : ctrl.Sized) {input : CtrlInput} (reads : ctrl.Reads input) {ctrl' : CtrlReceiver}
    {message : Option CtrlMessage} (stepped : ctrl.step cipher input = .ok (ctrl', message)) : ctrl'.Sized := by
  cases input with
  | turn =>
      by_cases parsing : ctrl.phase = .parsing
      · rw [CtrlReceiver.step, if_pos parsing] at stepped
        by_cases long : 8 ≤ ctrl.recvBufSize
        · by_cases unwrapped : 8 + ctrl.payloadSize < 2 ^ 32
          · by_cases whole : 8 + ctrl.payloadSize ≤ ctrl.recvBufSize
            · obtain ⟨_, taken, sized, -⟩ := takeMessage_whole cipher h whole
              rw [turn_header h long, taken] at stepped
              cases stepped
              exact sized
            · rw [turn_waits h long unwrapped (Nat.lt_of_not_le whole)] at stepped
              cases stepped
              exact ⟨h.length, h.size⟩
          · rw [turn_wrapped h long (Nat.le_of_not_lt unwrapped)] at stepped
            cases stepped
        · rw [turn, if_pos (Nat.lt_of_not_le long)] at stepped
          cases stepped
          exact ⟨h.length, h.size⟩
      · rw [CtrlReceiver.step, if_neg parsing] at stepped
        cases stepped
        exact h
  | recv chunk =>
      by_cases selecting : ctrl.phase = .selecting
      · rw [CtrlReceiver.step, if_pos selecting] at stepped
        by_cases closed : chunk.length = 0
        · rw [recv, if_pos closed] at stepped
          cases stepped
          exact ⟨h.length, h.size⟩
        · obtain ⟨_, read, sized, -⟩ := recv_ok h ⟨Nat.pos_of_ne_zero closed, reads⟩
          rw [read] at stepped
          cases stepped
          exact sized
      · rw [CtrlReceiver.step, if_neg selecting] at stepped
        cases stepped
        exact h

end Turn

/-- Every turn of a run is safe exactly if no header is read whose message wraps. -/
theorem safe_iff_unwrapped (cipher : CtrlCipher) (received : Bytes) (counter : Nat) (inputs : List CtrlInput)
    (room : received.length ≤ ctrlRecvBufSize)
    (reads : Machine.Along (step cipher) Reads (start received counter) inputs) :
    Machine.Along (step cipher) (Safe cipher) (start received counter) inputs ↔
      Machine.Along (step cipher) Unwrapped (start received counter) inputs := by
  refine Machine.along_iff Sized (fun _ _ _ _ sized reads stepped => sized.step reads stepped) ?_
    (sized_start room counter) reads
  exact fun ctrl input sized _ => imp_congr_right fun at_ => turnsSafely_iff sized at_.2.2

/-- A heartbeat request, and a header for a message that never fits. -/
def tooLong : List CtrlInput :=
  [.turn, .recv [0, 0xfe, 0, 0, 0xff, 0xff, 0xff, 0xf7], .turn, .turn, .recv [0, 5, 0, 0], .turn]

theorem safe_tooLong :
    Machine.Along (step .failing) (Safe .failing) (start [0, 0, 0, 0] 0) tooLong :=
  (safe_iff_unwrapped .failing [0, 0, 0, 0] 0 tooLong (by decide) (by decide +kernel)).mpr (by decide +kernel)

/-- A header with the size 2^32 - 8, whose message has the length 0 for the loop. -/
def wrappedHeader : Bytes := [0xff, 0xff, 0xff, 0xf8, 0, 5, 0, 0]

theorem not_safe_wrappedHeader :
    ¬ ∀ (cipher : CtrlCipher) (received : Bytes) (counter : Nat) (inputs : List CtrlInput),
      received.length ≤ ctrlRecvBufSize → Machine.Along (step cipher) Reads (start received counter) inputs →
        Machine.Along (step cipher) (Safe cipher) (start received counter) inputs := by
  intro safe
  have first := (safe .failing wrappedHeader 0 [.turn] (by decide) (by decide +kernel)).1
  obtain ⟨_, _, turned, -⟩ := first ⟨rfl, rfl, by decide⟩
  have outside : (start wrappedHeader 0).turn .failing = .error .outOfBounds :=
    turn_wrapped (sized_start (by decide) 0) (by decide) (by decide +kernel)
  rw [outside] at turned
  cases turned

end CtrlReceiver

end Chiaki
