import Chiaki.Ctrl.Receive

/-!
# The control stream

A stream of control messages arrives in chunks. What has been delivered and what is left in the buffer depend on
the bytes that have arrived, not on the chunks. For other streams the loop is safe as long as no header has a size
so large that the length of its message wraps.
-/

namespace Chiaki
open Memory

/-- A message as it is on the wire, with the two bytes of its header that are not used. -/
structure CtrlFrame where
  msgType : Nat
  reserved : Bytes
  payload : Bytes
  msgType_lt : msgType < 2 ^ 16
  length_reserved : reserved.length = 2
  fits : 8 + payload.length ≤ ctrlRecvBufSize

namespace CtrlFrame

def bytes (frame : CtrlFrame) : Bytes :=
  htonl frame.payload.length ++ htons frame.msgType ++ frame.reserved ++ frame.payload

def message (frame : CtrlFrame) : CtrlMessage := ⟨frame.msgType, frame.payload⟩

@[simp] theorem length_bytes (frame : CtrlFrame) : frame.bytes.length = 8 + frame.payload.length := by
  simp only [bytes, List.length_append, length_htonl, length_htons, frame.length_reserved]

/-- The messages that are complete in a prefix of a stream, and the rest of the prefix. -/
def cut : List CtrlFrame → Bytes → List CtrlMessage × Bytes
  | [], data => ([], data)
  | frame :: frames, data =>
      if frame.bytes.length ≤ data.length then
        let rest := cut frames (data.drop frame.bytes.length)
        (frame.message :: rest.1, rest.2)
      else ([], data)

/-- The frames after those that are complete. -/
def after : List CtrlFrame → Bytes → List CtrlFrame
  | [], _ => []
  | frame :: frames, data =>
      if frame.bytes.length ≤ data.length then after frames (data.drop frame.bytes.length) else frame :: frames

theorem cut_append (frames : List CtrlFrame) (data more : Bytes) :
    cut frames (data ++ more) =
      ((cut frames data).1 ++ (cut (after frames data) ((cut frames data).2 ++ more)).1,
        (cut (after frames data) ((cut frames data).2 ++ more)).2) := by
  induction frames generalizing data with
  | nil => rfl
  | cons frame frames ih =>
      by_cases whole : frame.bytes.length ≤ data.length
      · have whole' : frame.bytes.length ≤ (data ++ more).length := by
          rw [List.length_append]
          omega
        simp only [cut, after, if_pos whole, if_pos whole', List.drop_append_of_le_length whole, ih, List.cons_append]
      · simp only [cut, after, if_neg whole, List.nil_append]

theorem cut_prefix {frames : List CtrlFrame} {data more : Bytes} (h : data ++ more <+: frames.flatMap bytes) :
    (cut frames data).2 ++ more <+: (after frames data).flatMap bytes := by
  induction frames generalizing data with
  | nil => exact h
  | cons frame frames ih =>
      by_cases whole : frame.bytes.length ≤ data.length
      · simp only [cut, after, if_pos whole]
        apply ih
        rw [List.flatMap_cons] at h
        have := List.IsPrefix.drop h frame.bytes.length
        rwa [List.drop_append_of_le_length whole, List.drop_left] at this
      · simpa only [cut, after, if_neg whole] using h

theorem cut_after (frames : List CtrlFrame) (data : Bytes) :
    cut (after frames data) (cut frames data).2 = ([], (cut frames data).2) := by
  have same := cut_append frames data []
  rw [List.append_nil, List.append_nil] at same
  have messages := congrArg Prod.fst same
  have rest := congrArg Prod.snd same
  exact Prod.ext (List.append_right_eq_self.mp messages.symm) rest.symm

/-- The messages are those of the first frames, and the rest is a part of the next one. -/
def Delivers (frames : List CtrlFrame) (data : Bytes) (messages : List CtrlMessage) (rest : Bytes) : Prop :=
  ∃ before behind, frames = before ++ behind ∧ data = before.flatMap bytes ++ rest ∧
    messages = before.map message ∧
    match behind with
    | [] => rest = []
    | next :: _ => rest <+: next.bytes ∧ rest.length < next.bytes.length

theorem delivers_cut {frames : List CtrlFrame} {data : Bytes} (h : data <+: frames.flatMap bytes) :
    Delivers frames data (cut frames data).1 (cut frames data).2 := by
  induction frames generalizing data with
  | nil =>
      obtain rfl := List.prefix_nil.mp h
      exact ⟨[], [], rfl, rfl, rfl, rfl⟩
  | cons frame frames ih =>
      rw [List.flatMap_cons] at h
      by_cases whole : frame.bytes.length ≤ data.length
      · obtain ⟨tail, rfl⟩ := List.prefix_of_prefix_length_le (List.prefix_append _ _) h whole
        obtain ⟨before, behind, rfl, same, messages, last⟩ := ih ((List.prefix_append_right_inj _).mp h)
        simp only [cut, if_pos whole, List.drop_left]
        refine ⟨frame :: before, behind, rfl, ?_, by rw [messages]; rfl, last⟩
        rw [List.flatMap_cons, List.append_assoc, ← same]
      · simp only [cut, if_neg whole]
        exact ⟨[], frame :: frames, rfl, rfl, rfl,
          List.prefix_of_prefix_length_le h (List.prefix_append _ _) (Nat.le_of_not_le whole), Nat.lt_of_not_le whole⟩

/-! ## The fields of a frame -/

theorem header_bytes (frame : CtrlFrame) (rest : Bytes) :
    ((frame.bytes ++ rest).drop 0).take 4 = htonl frame.payload.length := by
  simp [bytes, htonl, htons]

theorem msgType_bytes (frame : CtrlFrame) (rest : Bytes) :
    ((frame.bytes ++ rest).drop 4).take 2 = htons frame.msgType := by
  simp [bytes, htonl, htons]

theorem payload_bytes (frame : CtrlFrame) (rest : Bytes) :
    ((frame.bytes ++ rest).drop 8).take frame.payload.length = frame.payload := by
  obtain ⟨b, b', reserved⟩ := List.length_eq_two.mp frame.length_reserved
  simp [bytes, htonl, htons, reserved]

theorem ntoh_header (frame : CtrlFrame) : ntoh (htonl frame.payload.length) = frame.payload.length := by
  have fits := frame.fits
  unfold ctrlRecvBufSize at fits
  rw [ntoh_htonl, Nat.mod_eq_of_lt (by omega)]

end CtrlFrame

namespace CtrlReceiver

section Frames

variable {cipher : CtrlCipher} {ctrl : CtrlReceiver} {frame : CtrlFrame}

theorem part_received {offset len : Nat} (inside : offset + len ≤ ctrl.recvBufSize) :
    (ctrl.recvBuf.drop offset).take len = (ctrl.received.drop offset).take len := by
  rw [received, List.drop_take, List.take_take, Nat.min_eq_left (by omega)]

theorem turn_eq (h : ctrl.Sized) (long : 8 ≤ ctrl.recvBufSize) :
    ctrl.turn cipher = ctrl.takeMessage cipher (ntoh ((ctrl.received.drop 0).take 4)) := by
  have length := h.length
  have size := h.size
  rw [turn, if_neg (by omega), read32_eq (by omega), ← part_received (by omega)]
  rfl

theorem turn_whole (cipher : CtrlCipher) (h : ctrl.Sized) {rest : Bytes} (whole : ctrl.received = frame.bytes ++ rest) :
    ∃ ctrl', ctrl.turn cipher = .ok (ctrl', some frame.message) ∧ ctrl'.Sized ∧ ctrl'.phase = ctrl.phase ∧
      ctrl'.received = rest ∧ ctrl'.recvBufSize < ctrl.recvBufSize := by
  have size : 8 + frame.payload.length ≤ ctrl.recvBufSize := by
    rw [← h.length_received, whole, List.length_append, frame.length_bytes]
    exact Nat.le_add_right _ _
  obtain ⟨ctrl', taken, sized, size', phase, received⟩ := takeMessage_whole cipher h size
  refine ⟨ctrl', ?_, sized, phase, ?_, by omega⟩
  · rw [turn_eq h (by omega), whole, frame.header_bytes, frame.ntoh_header, taken, part_received (by omega),
      part_received (by omega), whole, frame.msgType_bytes, frame.payload_bytes, ntoh_htons,
      Nat.mod_eq_of_lt frame.msgType_lt]
    rfl
  · rw [received, whole, ← frame.length_bytes, List.drop_left]

theorem turn_empty (empty : ctrl.recvBufSize < 8) :
    ctrl.turn cipher = .ok ({ ctrl with phase := .selecting }, none) := by
  rw [turn, if_pos empty]
  rfl

theorem turn_part (h : ctrl.Sized) (part : ctrl.received <+: frame.bytes)
    (short : ctrl.received.length < frame.bytes.length) :
    ctrl.turn cipher = .ok ({ ctrl with phase := .selecting }, none) := by
  rw [h.length_received, frame.length_bytes] at short
  have fits := frame.fits
  by_cases header : ctrl.recvBufSize < 8
  · exact turn_empty header
  · obtain ⟨rest, bytes⟩ := part
    have same : (ctrl.received.drop 0).take 4 = htonl frame.payload.length := by
      have := frame.header_bytes []
      rw [List.append_nil, ← bytes, List.drop_zero, List.take_append_of_le_length] at this
      · simpa using this
      · rw [h.length_received]
        omega
    have total : (8 + frame.payload.length) % 2 ^ 32 = 8 + frame.payload.length := by
      unfold ctrlRecvBufSize at fits
      exact Nat.mod_eq_of_lt (by omega)
    rw [turn_eq h (by omega), same, frame.ntoh_header]
    simp only [takeMessage, total]
    rw [if_pos short, if_neg (by omega)]
    rfl

/-- The inner loop delivers the messages that are complete, and keeps the rest. -/
theorem drain_cut {frames : List CtrlFrame} {fuel : Nat} (cipher : CtrlCipher) (h : ctrl.Sized) (parsing : ctrl.phase = .parsing)
    (stream : ctrl.received <+: frames.flatMap CtrlFrame.bytes) (enough : ctrl.recvBufSize < fuel) :
    ∃ ctrl', ctrl.drain cipher fuel = .ok (ctrl', (CtrlFrame.cut frames ctrl.received).1) ∧ ctrl'.Sized ∧
      ctrl'.phase = .selecting ∧ ctrl'.received = (CtrlFrame.cut frames ctrl.received).2 := by
  induction frames generalizing ctrl fuel with
  | nil =>
      obtain ⟨fuel, rfl⟩ := Nat.exists_eq_succ_of_ne_zero (Nat.ne_of_gt (Nat.zero_lt_of_lt enough))
      have empty : ctrl.recvBufSize = 0 := by
        rw [← h.length_received, List.prefix_nil.mp stream]
        rfl
      refine ⟨{ ctrl with phase := .selecting }, ?_, ⟨h.length, h.size⟩, rfl, rfl⟩
      rw [drain, if_pos parsing, turn_empty (by omega)]
      cases fuel <;> rfl
  | cons frame frames ih =>
      obtain ⟨fuel, rfl⟩ := Nat.exists_eq_succ_of_ne_zero (Nat.ne_of_gt (Nat.zero_lt_of_lt enough))
      rw [List.flatMap_cons] at stream
      by_cases whole : frame.bytes.length ≤ ctrl.received.length
      · obtain ⟨rest, split⟩ := List.prefix_of_prefix_length_le (List.prefix_append _ _) stream whole
        obtain ⟨ctrl₁, taken, sized, phase, received, less⟩ := turn_whole cipher h split.symm
        have stream' : ctrl₁.received <+: frames.flatMap CtrlFrame.bytes := by
          rw [← split] at stream
          rw [received]
          exact (List.prefix_append_right_inj _).mp stream
        obtain ⟨ctrl₂, drained, sized', selecting, received'⟩ :=
          ih sized (phase.trans parsing) stream' (show ctrl₁.recvBufSize < fuel by omega)
        have left : ctrl.received.drop frame.bytes.length = ctrl₁.received := by
          rw [received, ← split, List.drop_left]
        simp only [CtrlFrame.cut, if_pos whole, left]
        refine ⟨ctrl₂, ?_, sized', selecting, received'⟩
        rw [drain, if_pos parsing, taken, ok_bind, drained]
        rfl
      · have part : ctrl.received <+: frame.bytes :=
          List.prefix_of_prefix_length_le stream (List.prefix_append _ _) (Nat.le_of_not_le whole)
        simp only [CtrlFrame.cut, if_neg whole]
        refine ⟨{ ctrl with phase := .selecting }, ?_, ⟨h.length, h.size⟩, rfl, rfl⟩
        rw [drain, if_pos parsing, turn_part h part (Nat.lt_of_not_le whole)]
        cases fuel <;> rfl

theorem accept_cut {frames : List CtrlFrame} (cipher : CtrlCipher) (h : ctrl.Sized) (selecting : ctrl.phase = .selecting) {chunk : Bytes}
    (fits : ctrl.Fits chunk) (stream : ctrl.received ++ chunk <+: frames.flatMap CtrlFrame.bytes) :
    ∃ ctrl', ctrl.accept cipher chunk = .ok (ctrl', (CtrlFrame.cut frames (ctrl.received ++ chunk)).1) ∧
      ctrl'.Sized ∧ ctrl'.phase = .selecting ∧
      ctrl'.received = (CtrlFrame.cut frames (ctrl.received ++ chunk)).2 := by
  obtain ⟨ctrl₁, read, sized, parsing, received⟩ := recv_ok h fits
  rw [← received] at stream ⊢
  rw [accept, if_pos selecting, read, ok_bind]
  exact drain_cut cipher sized parsing stream (Nat.lt_succ_self _)

theorem run_cut {frames : List CtrlFrame} {chunks : List Bytes} (h : ctrl.Sized) (selecting : ctrl.phase = .selecting)
    (settled : CtrlFrame.cut frames ctrl.received = ([], ctrl.received))
    (fits : Machine.Along (accept cipher) Fits ctrl chunks)
    (stream : ctrl.received ++ chunks.flatten <+: frames.flatMap CtrlFrame.bytes) :
    ∃ ctrl' messages, Machine.run (accept cipher) ctrl chunks = .ok (ctrl', messages) ∧
      messages.flatten = (CtrlFrame.cut frames (ctrl.received ++ chunks.flatten)).1 ∧
      ctrl'.received = (CtrlFrame.cut frames (ctrl.received ++ chunks.flatten)).2 := by
  induction chunks generalizing ctrl frames with
  | nil =>
      rw [List.flatten_nil, List.append_nil, settled]
      exact ⟨ctrl, [], rfl, rfl, rfl⟩
  | cons chunk chunks ih =>
      rw [List.flatten_cons, ← List.append_assoc] at stream ⊢
      have stream₁ := (List.prefix_append _ _).trans stream
      obtain ⟨ctrl₁, accepted, sized, selecting₁, received⟩ := accept_cut cipher h selecting fits.1 stream₁
      have settled₁ := CtrlFrame.cut_after frames (ctrl.received ++ chunk)
      have rest := CtrlFrame.cut_prefix stream
      rw [← received] at settled₁ rest
      obtain ⟨ctrl₂, messages, run, delivered, received₂⟩ := ih sized selecting₁ settled₁ (fits.2 _ _ accepted) rest
      rw [CtrlFrame.cut_append, ← received]
      refine ⟨ctrl₂, (CtrlFrame.cut frames (ctrl.received ++ chunk)).1 :: messages, ?_, ?_, received₂⟩
      · rw [Machine.run_cons_ok accepted, run]
        rfl
      · rw [List.flatten_cons, delivered]

end Frames

/-- Whatever the chunks are, the messages are delivered that are complete, and the rest is in the buffer. -/
theorem session_delivers (cipher : CtrlCipher) (frames : List CtrlFrame) (received : Bytes) (counter : Nat)
    (chunks : List Bytes) (room : received.length ≤ ctrlRecvBufSize)
    (fits : ∀ ctrl messages, (start received counter).parse cipher = .ok (ctrl, messages) →
      Machine.Along (accept cipher) Fits ctrl chunks)
    (stream : received ++ chunks.flatten <+: frames.flatMap CtrlFrame.bytes) :
    ∃ ctrl messages, session cipher received counter chunks = .ok (ctrl, messages) ∧
      CtrlFrame.Delivers frames (received ++ chunks.flatten) messages ctrl.received := by
  have sized := sized_start room counter
  have stream₁ := (List.prefix_append _ _).trans stream
  rw [← received_start received counter] at stream₁
  obtain ⟨ctrl₁, parsed, sized₁, selecting, left⟩ := drain_cut cipher sized rfl stream₁ (Nat.lt_succ_self _)
  have settled := CtrlFrame.cut_after frames (start received counter).received
  have rest := CtrlFrame.cut_prefix stream
  rw [received_start] at left settled
  rw [← left] at settled rest
  obtain ⟨ctrl₂, messages, run, delivered, received₂⟩ := run_cut sized₁ selecting settled (fits _ _ parsed) rest
  have cut := CtrlFrame.delivers_cut stream
  rw [CtrlFrame.cut_append, ← left, ← delivered, ← received₂] at cut
  refine ⟨ctrl₂, _, ?_, cut⟩
  rw [session, parse, parsed, received_start, ok_bind, run, ok_bind]
  rfl

/-- A heartbeat request and a login message. -/
def heartbeatLogin : List CtrlFrame :=
  [⟨0xfe, [0, 0], [], by decide, rfl, by decide⟩, ⟨0x5, [0, 0], [7], by decide, rfl, by decide⟩]

theorem session_delivers_split :
    ∃ ctrl messages, session .failing [0, 0, 0] 0 [[0, 0], [0xfe, 0, 0, 0, 0, 0], [1, 0, 5, 0]] = .ok (ctrl, messages) ∧
      CtrlFrame.Delivers heartbeatLogin [0, 0, 0, 0, 0, 0xfe, 0, 0, 0, 0, 0, 1, 0, 5, 0] messages ctrl.received := by
  refine session_delivers .failing heartbeatLogin [0, 0, 0] 0 [[0, 0], [0xfe, 0, 0, 0, 0, 0], [1, 0, 5, 0]]
    (by decide) ?_ (by decide)
  intro ctrl messages parsed
  have first : (start [0, 0, 0] 0).parse .failing = .ok ({ start [0, 0, 0] 0 with phase := .selecting }, []) := rfl
  rw [first] at parsed
  cases parsed
  decide +kernel

end CtrlReceiver

end Chiaki
