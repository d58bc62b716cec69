import Chiaki.Ctrl.Receive
import Chiaki.Rudp.Codec

/-!
# Receiving control messages over RUDP

What `ctrl_thread_func` does with one datagram: each message in it is acknowledged, and a control message is copied to
the receive buffer.
-/

namespace Chiaki
open Memory

def ctrlRudpRecvBufSize : Nat := 520

inductive CtrlRudpCall where
  | ackPacket (counter : Nat)
  | sendAckMessage (remoteCounter : Nat)
  | failed
  deriving DecidableEq

/-- The thread between two messages of a datagram, with what it has called so far. -/
structure CtrlRudp where
  ctrl : CtrlReceiver
  ackCounter : Nat
  calls : List CtrlRudpCall

/-- `rudp_packet_type_data_offset`. -/
def rudpPacketTypeDataOffset (subtype : Nat) : Nat :=
  if subtype = 0x12 then 8 else if subtype = 0x26 then 6 else 2

/-- The subtypes that may carry a control message. -/
def rudpCtrlSubtypes : List Nat := [0x02, 0x12, 0x26, 0x36]

/-- `message.data_size - offset`, of a `size_t`. -/
def rudpRest (dataSize offset : Nat) : Nat := (dataSize + 2 ^ 64 - offset) % 2 ^ 64

namespace CtrlReceiver

/-- The data from an offset on is copied if it is a control message. -/
def copyRudp (ctrl : CtrlReceiver) (data : Bytes) (offset : Nat) : Checked CtrlReceiver :=
  let rest := rudpRest data.length offset
  if rest < 8 then pure ctrl
  else do
    let ctrlPayloadSize ← read32 data offset
    if rest - 8 = ctrlPayloadSize then do
      let message ← field data offset rest
      let recvBuf ← setField ctrl.recvBuf ctrl.recvBufSize message
      pure { ctrl with recvBuf := recvBuf, recvBufSize := ctrl.recvBufSize + rest }
    else pure ctrl

end CtrlReceiver

/-- The `switch` of the loop over the messages of a datagram. -/
def CtrlRudp.message (remoteCounter : Nat) (s : CtrlRudp) (message : RudpParsed) : Checked CtrlRudp :=
  if message.subtype ∈ rudpCtrlSubtypes then do
    let ackCounter ← read16 message.data 2
    let ctrl ← s.ctrl.copyRudp message.data (rudpPacketTypeDataOffset message.subtype)
    pure ⟨ctrl, ackCounter, s.calls ++ [.ackPacket ackCounter, .sendAckMessage remoteCounter]⟩
  else if message.subtype = 0x24 then do
    let ackCounter ← read16 message.data 2
    pure ⟨s.ctrl, ackCounter, s.calls ++ [.ackPacket ackCounter]⟩
  else if message.subtype = 0xc0 then pure { s with calls := s.calls ++ [.failed] }
  else do
    -- the counter that is acknowledged is the one of an earlier message
    let ctrl ← s.ctrl.copyRudp message.data 4
    pure { s with ctrl := ctrl, calls := s.calls ++ [.ackPacket s.ackCounter, .sendAckMessage remoteCounter] }

namespace CtrlReceiver

def leave (ctrl : CtrlReceiver) : CtrlReceiver × List CtrlRudpCall := ({ ctrl with phase := .left }, [.failed])

/-- A datagram is received into a buffer of `sizeof(rudp_recv_buf)` less what is in use of `recv_buf`. `alloc` is for the
parser. -/
def recvRudp (alloc : Nat → Bool) (ctrl : CtrlReceiver) (datagram : Bytes) : Checked (CtrlReceiver × List CtrlRudpCall) :=
  let buf := datagram.take (ctrlRudpRecvBufSize - ctrl.recvBufSize)
  if buf.length ≤ 8 then pure ctrl.leave
  else do
    let parse ← rudpParse alloc buf
    if parse.err ≠ .success then pure ctrl.leave
    else do
      let outer ← deref parse.chain.head?
      if outer.data.length < 4 then pure ctrl.leave
      else do
        let s ← parse.chain.foldlM (CtrlRudp.message outer.remoteCounter) ⟨ctrl, 0, []⟩
        pure ({ s.ctrl with phase := .parsing }, s.calls)

end CtrlReceiver

/-! ## What a message needs -/

/-- The data of a message that is accessed whatever it is. -/
def rudpNeeded (subtype : Nat) : Nat :=
  if subtype = 0x12 then 8 else if subtype = 0x26 then 6 else if subtype = 0xc0 then 0 else 4

/-- Where the data of a control message would begin. -/
def rudpCtrlOffset (subtype : Nat) : Option Nat :=
  if subtype ∈ rudpCtrlSubtypes then some (rudpPacketTypeDataOffset subtype)
  else if subtype = 0x24 ∨ subtype = 0xc0 then none
  else some 4

theorem rudpRest_eq {dataSize offset : Nat} (small : dataSize < 2 ^ 63) (le : offset ≤ dataSize) :
    rudpRest dataSize offset = dataSize - offset := by
  unfold rudpRest
  omega

theorem rudpRest_wrapped {dataSize offset : Nat} (short : dataSize < offset) (small : offset < 2 ^ 63) :
    8 ≤ rudpRest dataSize offset := by
  unfold rudpRest
  omega

section Message
variable {data : Bytes} {offset : Nat} {ctrl : CtrlReceiver}

theorem CtrlReceiver.copyRudp_ok (small : data.length < 2 ^ 63) (le : offset ≤ data.length)
    (free : ctrl.recvBufSize + (data.length - offset) ≤ ctrl.recvBuf.length) :
    ∃ ctrl', ctrl.copyRudp data offset = .ok ctrl' ∧ ctrl'.recvBuf.length = ctrl.recvBuf.length ∧
      ctrl'.recvBufSize ≤ ctrl.recvBufSize + (data.length - offset) := by
  rw [copyRudp, rudpRest_eq small le]
  split
  · exact ⟨ctrl, rfl, rfl, Nat.le_add_right _ _⟩
  · rename_i long
    rw [read32_eq (by omega), ok_bind]
    split
    · have message := @field_eq data offset (data.length - offset) (by omega)
      have size : ((data.drop offset).take (data.length - offset)).length = data.length - offset := by
        rw [List.length_take, List.length_drop]
        omega
      obtain ⟨recvBuf, written, -, length⟩ := @setField_ok ctrl.recvBuf _ ctrl.recvBufSize (by rw [size]; exact free)
      rw [message, ok_bind, written]
      exact ⟨_, rfl, length, le_rfl⟩
    · exact ⟨ctrl, rfl, rfl, Nat.le_add_right _ _⟩

theorem CtrlReceiver.copyRudp_inside (small : offset < 2 ^ 63) {ctrl' : CtrlReceiver} (ran : ctrl.copyRudp data offset = .ok ctrl') :
    offset ≤ data.length := by
  by_contra short
  rw [copyRudp] at ran
  rw [if_neg (not_lt.mpr (rudpRest_wrapped (not_le.mp short) small))] at ran
  obtain ⟨size, got, -⟩ := bind_eq_ok ran
  obtain ⟨bytes, got, -⟩ := bind_eq_ok got
  have inside := field_inside got
  omega

end Message

section Datagram
variable {s : CtrlRudp} {message : RudpParsed} {remoteCounter : Nat}

/-- The messages of a datagram that are processed. -/
def CtrlReceiver.rudpMessages (alloc : Nat → Bool) (ctrl : CtrlReceiver) (datagram : Bytes) : List RudpParsed :=
  let buf := datagram.take (ctrlRudpRecvBufSize - ctrl.recvBufSize)
  if buf.length ≤ 8 then []
  else
    match rudpParse alloc buf with
    | .ok ⟨_, outer :: chain, .success⟩ => if outer.data.length < 4 then [] else outer :: chain
    | _ => []

theorem rudpCtrlOffset_le_needed {subtype offset : Nat} (carries : rudpCtrlOffset subtype = some offset) :
    offset ≤ rudpNeeded subtype := by
  unfold rudpCtrlOffset at carries
  split at carries
  · rename_i member
    obtain rfl := Option.some.inj carries
    simp only [rudpCtrlSubtypes, List.mem_cons, List.not_mem_nil, or_false] at member
    rcases member with rfl | rfl | rfl | rfl <;> decide
  · rename_i noMember
    split at carries
    · cases carries
    · rename_i other
      obtain rfl := Option.some.inj carries
      simp only [rudpCtrlSubtypes, List.mem_cons, List.not_mem_nil, or_false, not_or] at noMember
      rw [rudpNeeded, if_neg noMember.2.1, if_neg noMember.2.2.1, if_neg fun finish => other (.inr finish)]

theorem four_le_needed {subtype : Nat} (member : subtype ∈ rudpCtrlSubtypes) : 4 ≤ rudpNeeded subtype := by
  simp only [rudpCtrlSubtypes, List.mem_cons, List.not_mem_nil, or_false] at member
  rcases member with rfl | rfl | rfl | rfl <;> decide

/-- A message with what it needs is processed, and copies at most its data. -/
theorem CtrlRudp.message_ok (small : message.data.length < 2 ^ 63) (needed : rudpNeeded message.subtype ≤ message.data.length)
    (free : s.ctrl.recvBufSize + message.data.length ≤ s.ctrl.recvBuf.length) :
    ∃ s', s.message remoteCounter message = .ok s' ∧ s'.ctrl.recvBuf.length = s.ctrl.recvBuf.length ∧
      s'.ctrl.recvBufSize ≤ s.ctrl.recvBufSize + message.data.length := by
  rw [CtrlRudp.message]
  split
  · rename_i member
    have le := (@rudpCtrlOffset_le_needed message.subtype _ (if_pos member)).trans needed
    have ack := (four_le_needed member).trans needed
    obtain ⟨ctrl, copied, length, size⟩ := @CtrlReceiver.copyRudp_ok message.data _ s.ctrl small le (by omega)
    rw [read16_eq (by omega), ok_bind, copied]
    exact ⟨_, rfl, length, size.trans (Nat.add_le_add_left (Nat.sub_le _ _) _)⟩
  rename_i noMember
  split
  · rename_i ack
    rw [ack] at needed
    have inside : 4 ≤ message.data.length := needed
    rw [read16_eq (by omega)]
    exact ⟨_, rfl, rfl, Nat.le_add_right _ _⟩
  rename_i noAck
  split
  · exact ⟨_, rfl, rfl, Nat.le_add_right _ _⟩
  · rename_i other
    have carries : rudpCtrlOffset message.subtype = some 4 := by
      rw [rudpCtrlOffset, if_neg noMember, if_neg (not_or.mpr ⟨noAck, other⟩)]
    have le := (rudpCtrlOffset_le_needed carries).trans needed
    obtain ⟨ctrl, copied, length, size⟩ := @CtrlReceiver.copyRudp_ok message.data _ s.ctrl small le (by omega)
    rw [copied]
    exact ⟨_, rfl, length, size.trans (Nat.add_le_add_left (Nat.sub_le _ _) _)⟩

theorem CtrlRudp.message_needed {s' : CtrlRudp} (ran : s.message remoteCounter message = .ok s') :
    rudpNeeded message.subtype ≤ message.data.length := by
  rw [CtrlRudp.message] at ran
  split at ran
  · rename_i member
    obtain ⟨ackCounter, acked, ran⟩ := bind_eq_ok ran
    obtain ⟨ctrl, copied, -⟩ := bind_eq_ok ran
    have ackInside := read16_inside acked
    simp only [rudpCtrlSubtypes, List.mem_cons, List.not_mem_nil, or_false] at member
    rcases member with same | same | same | same <;> rw [same] at copied ⊢
    · exact ackInside
    · exact CtrlReceiver.copyRudp_inside (by decide) copied
    · exact CtrlReceiver.copyRudp_inside (by decide) copied
    · exact ackInside
  rename_i noMember
  simp only [rudpCtrlSubtypes, List.mem_cons, List.not_mem_nil, or_false, not_or] at noMember
  rw [rudpNeeded, if_neg noMember.2.1, if_neg noMember.2.2.1]
  split at ran
  · rename_i ack
    obtain ⟨ackCounter, acked, ran⟩ := bind_eq_ok ran
    rw [ack, if_neg (by decide)]
    exact read16_inside acked
  split at ran
  · rename_i finish
    rw [if_pos finish]
    exact Nat.zero_le _
  · rename_i other
    obtain ⟨ctrl, copied, -⟩ := bind_eq_ok ran
    rw [if_neg other]
    exact CtrlReceiver.copyRudp_inside (by decide) copied

theorem CtrlRudp.messages_ok {chain : List RudpParsed} (small : (chain.map (·.data.length)).sum < 2 ^ 63)
    (needed : ∀ message ∈ chain, rudpNeeded message.subtype ≤ message.data.length)
    (free : s.ctrl.recvBufSize + (chain.map (·.data.length)).sum ≤ s.ctrl.recvBuf.length) :
    ∃ s', chain.foldlM (CtrlRudp.message remoteCounter) s = .ok s' := by
  induction chain generalizing s with
  | nil => exact ⟨s, rfl⟩
  | cons message chain ih =>
      rw [List.map_cons, List.sum_cons] at small free
      obtain ⟨mid, processed, length, size⟩ :=
        @CtrlRudp.message_ok s message remoteCounter (by omega) (needed message List.mem_cons_self) (by omega)
      obtain ⟨s', ran⟩ := @ih mid (by omega) (fun later member => needed later (List.mem_cons_of_mem _ member)) (by omega)
      exact ⟨s', by rw [List.foldlM_cons, processed, ok_bind, ran]⟩

theorem CtrlRudp.messages_needed {chain : List RudpParsed} {s' : CtrlRudp}
    (ran : chain.foldlM (CtrlRudp.message remoteCounter) s = .ok s') :
    ∀ message ∈ chain, rudpNeeded message.subtype ≤ message.data.length := by
  induction chain generalizing s with
  | nil =>
      intro message member
      cases member
  | cons message chain ih =>
      rw [List.foldlM_cons] at ran
      obtain ⟨mid, processed, ran⟩ := bind_eq_ok ran
      rw [List.forall_mem_cons]
      exact ⟨CtrlRudp.message_needed processed, ih ran⟩

end Datagram

/-- Every access is in its block, and no remaining size wraps. -/
structure RudpReceiveSafe (alloc : Nat → Bool) (ctrl : CtrlReceiver) (datagram : Bytes) : Prop where
  returned : ∃ outcome, ctrl.recvRudp alloc datagram = .ok outcome
  unwrapped : ∀ message ∈ ctrl.rudpMessages alloc datagram, ∀ offset, rudpCtrlOffset message.subtype = some offset →
    rudpRest message.data.length offset = message.data.length - offset ∧ offset ≤ message.data.length

/-- The datagram is refused, or its messages are processed. They have come in a buffer whose size leaves room for them. -/
theorem recvRudp_cases (alloc : Nat → Bool) (ctrl : CtrlReceiver) (datagram : Bytes) :
    (ctrl.recvRudp alloc datagram = .ok ctrl.leave ∧ ctrl.rudpMessages alloc datagram = []) ∨
      ∃ outer chain, ctrl.rudpMessages alloc datagram = outer :: chain ∧
        ((outer :: chain).map fun parsed => 8 + parsed.data.length).sum ≤ ctrlRudpRecvBufSize - ctrl.recvBufSize ∧
        ctrl.recvRudp alloc datagram = (do
          let s ← (outer :: chain).foldlM (CtrlRudp.message outer.remoteCounter) ⟨ctrl, 0, []⟩
          pure ({ s.ctrl with phase := .parsing }, s.calls)) := by
  rw [CtrlReceiver.recvRudp, CtrlReceiver.rudpMessages]
  dsimp only
  have size : (datagram.take (ctrlRudpRecvBufSize - ctrl.recvBufSize)).length ≤ ctrlRudpRecvBufSize - ctrl.recvBufSize :=
    List.length_take_le _ _
  generalize datagram.take (ctrlRudpRecvBufSize - ctrl.recvBufSize) = buf at size
  by_cases short : buf.length ≤ 8
  · exact .inl ⟨if_pos short, if_pos short⟩
  have bounded : buf.length < 2 ^ 31 := by
    rw [ctrlRudpRecvBufSize] at size
    omega
  obtain ⟨r, parsed, -⟩ := rudpMessageParse_within alloc (Nat.zero_add buf.length) (by omega) bounded le_rfl
  obtain ⟨nonempty, total⟩ := rudpMessageParse_total alloc (Nat.zero_add buf.length) (by omega) bounded parsed
  rw [if_neg short, if_neg short, rudpParse, parsed, ok_bind]
  obtain ⟨buf', chain, err⟩ := r
  by_cases failed : err = .success
  · obtain rfl := failed
    cases chain with
    | nil => exact absurd rfl nonempty
    | cons outer chain =>
        by_cases small : outer.data.length < 4
        · exact .inl ⟨if_pos small, if_pos small⟩
        · exact .inr ⟨outer, chain, if_neg small, total.trans size, if_neg small⟩
  · left
    refine ⟨if_pos failed, ?_⟩
    cases chain <;> cases err <;> first | rfl | exact absurd rfl failed

theorem rudpReceiveSafe_iff (alloc : Nat → Bool) {ctrl : CtrlReceiver} (sized : ctrl.Sized) (datagram : Bytes) :
    RudpReceiveSafe alloc ctrl datagram ↔
      ∀ message ∈ ctrl.rudpMessages alloc datagram, rudpNeeded message.subtype ≤ message.data.length := by
  rcases recvRudp_cases alloc ctrl datagram with ⟨refused, none⟩ | ⟨outer, chain, messages, total, run⟩
  · rw [none]
    refine ⟨fun _ => by simp, fun _ => ⟨⟨_, refused⟩, ?_⟩⟩
    rw [none]
    intro message member
    cases member
  rw [messages]
  constructor
  · rintro ⟨⟨outcome, returned⟩, -⟩
    rw [run] at returned
    obtain ⟨s, ran, -⟩ := bind_eq_ok returned
    exact CtrlRudp.messages_needed ran
  · intro needed
    have later : (chain.map (·.data.length)).sum ≤ (chain.map fun parsed => 8 + parsed.data.length).sum :=
      List.sum_le_sum fun _ _ => Nat.le_add_left _ _
    rw [List.map_cons, List.sum_cons, ctrlRudpRecvBufSize] at total
    have length := sized.length
    have size := sized.size
    rw [ctrlRecvBufSize] at length size
    have data : ((outer :: chain).map (·.data.length)).sum + 8 ≤ 520 - ctrl.recvBufSize := by
      rw [List.map_cons, List.sum_cons]
      omega
    constructor
    · obtain ⟨s, ran⟩ := @CtrlRudp.messages_ok ⟨ctrl, 0, []⟩ outer.remoteCounter (outer :: chain) (by omega) needed
        (by dsimp only; omega)
      rw [run, ran]
      exact ⟨_, rfl⟩
    · rw [messages]
      intro message member offset carries
      have le := (rudpCtrlOffset_le_needed carries).trans (needed message member)
      have small : message.data.length ≤ ((outer :: chain).map (·.data.length)).sum :=
        List.le_sum_of_mem (List.mem_map_of_mem member)
      exact ⟨rudpRest_eq (by omega) le, le⟩

/-- A control message with a payload of one byte. -/
theorem rudpReceiveSafe_message : RudpReceiveSafe (fun _ => true) (.start [] 0)
    (rudpMessageSerialize [⟨0x0230, 0xc013, [0, 1, 0, 0, 0, 1, 0, 5, 0, 0, 7]⟩]) :=
  (rudpReceiveSafe_iff _ (CtrlReceiver.sized_start (Nat.zero_le _) 0) _).mpr (by decide +kernel)

/-- `0x12` with 4 bytes of data, where 8 are skipped. -/
theorem rudpReceiveSafe_shortData : ¬ RudpReceiveSafe (fun _ => true) (.start [] 0)
    (rudpMessageSerialize [⟨0x1230, 0xc00c, [0, 1, 0, 2]⟩]) := by
  rintro ⟨-, unwrapped⟩
  have outside := (unwrapped ⟨0x12, 0x1230, 0xc00c, 2, 8, [0, 1, 0, 2], 0⟩ (by decide +kernel) 8 rfl).2
  exact absurd outside (by decide)

end Chiaki
