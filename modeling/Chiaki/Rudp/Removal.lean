import Chiaki.Rudp.SendBuffer

/-!
# What an acknowledgement removes

`chiaki_takion_send_buffer_ack` and `chiaki_rudp_send_buffer_ack`, with everything they write. The two are one code
for numbers of two widths.
-/

namespace Chiaki
open Memory Serial

inductive SendBufferKind where
  | takion
  | rudp
  deriving DecidableEq, Repr

namespace SendBufferKind

def bits : SendBufferKind → Nat
  | .takion => 32
  | .rudp => 16

def covers : SendBufferKind → Nat → SendBufferPacket → Bool
  | .takion => SendBuffer.covers
  | .rudp => rudpCovers

end SendBufferKind

/-- What `ack` leaves: the buffer, what it wrote for its caller, and the blocks in the order they were freed. -/
structure Acked where
  buffer : SendBuffer
  ackedSeqNums : Option (List Nat)
  ackedSeqNumsCount : Nat
  freed : List HeapBlock
  deriving DecidableEq, Repr

namespace SendBuffer

/-- `acked_seq_nums[(*acked_seq_nums_count)++] = seq_num`, if there is an array. -/
def reportAcked (ackedSeqNums : Option (List Nat)) (count seqNum : Nat) : Checked (Option (List Nat) × Nat) :=
  match ackedSeqNums with
  | none => pure (none, count)
  | some array =>
      if count < array.length then pure (some (array.set count seqNum), count + 1) else .error .outOfBounds

def ackLoop (covers : SendBufferPacket → Bool) : (left i : Nat) → Sieve SendBufferPacket → Option (List Nat) →
    (count : Nat) → (freed : List HeapBlock) →
    Checked (Sieve SendBufferPacket × Option (List Nat) × Nat × List HeapBlock)
  | 0, _, sieve, ackedSeqNums, count, freed => pure (sieve, ackedSeqNums, count, freed)
  | left + 1, i, sieve, ackedSeqNums, count, freed => do
      let packet ← inBounds sieve.cells[i]?
      if covers packet then do
        let reported ← reportAcked ackedSeqNums count packet.seqNum
        let sieve ← inBounds (sieve.remove i)
        ackLoop covers left (i + 1) sieve reported.1 reported.2 (freed ++ [packet.buf])
      else ackLoop covers left (i + 1) sieve ackedSeqNums count freed

def ackOf (kind : SendBufferKind) (buffer : SendBuffer) (seqNum : Nat) (ackedSeqNums : Option (List Nat)) :
    Checked Acked := do
  let r ← ackLoop (kind.covers seqNum) buffer.packetsCount 0 (Sieve.start buffer.packets) ackedSeqNums 0 []
  let c ← inBounds (r.1.close buffer.packetsCount)
  pure ⟨⟨c.1, c.2⟩, r.2.1, r.2.2.1, r.2.2.2⟩

/-- `chiaki_takion_send_buffer_ack`. -/
def takionSendBufferAck : SendBuffer → Nat → Option (List Nat) → Checked Acked := ackOf .takion

/-- `chiaki_rudp_send_buffer_ack`. -/
def rudpSendBufferAck : SendBuffer → Nat → Option (List Nat) → Checked Acked := ackOf .rudp

/-! ## The array of the caller -/

/-- The array once the numbers of the removed packets are in it. -/
def filled (array : List Nat) (removed : List SendBufferPacket) : List Nat :=
  removed.map (·.seqNum) ++ array.drop removed.length

variable {array : List Nat} {removed : List SendBufferPacket}

@[simp] theorem filled_nil : filled array [] = array := rfl

theorem length_filled (fits : removed.length ≤ array.length) : (filled array removed).length = array.length := by
  rw [filled, List.length_append, List.length_map, List.length_drop]
  omega

theorem set_filled (room : removed.length < array.length) (packet : SendBufferPacket) :
    (filled array removed).set removed.length packet.seqNum = filled array (removed ++ [packet]) := by
  have behind : (removed.map (·.seqNum)).length ≤ removed.length := (List.length_map _).le
  rw [filled, List.set_append_right _ _ behind, List.length_map, Nat.sub_self, List.drop_eq_getElem_cons room,
    List.set_cons_zero, filled, List.map_append, List.append_assoc, List.length_append]
  rfl

theorem reportAcked_filled (fits : removed.length ≤ array.length) (packet : SendBufferPacket) :
    reportAcked (some (filled array removed)) removed.length packet.seqNum =
      if removed.length ≥ array.length then .error .outOfBounds
      else .ok (some (filled array (removed ++ [packet])), (removed ++ [packet]).length) := by
  rw [reportAcked, length_filled fits]
  by_cases room : removed.length < array.length
  · rw [if_pos room, if_neg (Nat.not_le.mpr room), set_filled room, List.length_append]
    rfl
  · rw [if_neg room, if_pos (Nat.not_lt.mp room)]

/-- The loop removes as the sieve does, and reports and frees what is removed. -/
theorem ackLoop_eq (covers : SendBufferPacket → Bool) (left i : Nat) (s : Sieve SendBufferPacket)
    (fits : removed.length ≤ array.length) :
    ackLoop covers left i s (some (filled array removed)) removed.length (removed.map (·.buf)) =
      (inBounds (Sieve.sieveFrom covers array.length left i s removed)).map fun r =>
        (r.1, some (filled array r.2), r.2.length, r.2.map (·.buf)) := by
  induction left generalizing i s removed with
  | zero => rfl
  | succ left ih =>
      rw [ackLoop, Sieve.sieveFrom]
      cases s.cells[i]? with
      | none => rfl
      | some packet =>
          rw [inBounds_some, ok_bind]
          dsimp only
          split
          · rw [reportAcked_filled fits]
            by_cases full : removed.length ≥ array.length
            · rw [if_pos full, if_pos full]
              rfl
            · rw [if_neg full, if_neg full, ok_bind]
              cases s.remove i with
              | none => rfl
              | some s' =>
                  have fits' : (removed ++ [packet]).length ≤ array.length := by
                    rw [List.length_append, List.length_singleton]
                    omega
                  rw [inBounds_some, ok_bind, ← ih (i + 1) s' fits', List.map_append]
                  rfl
          · exact ih (i + 1) s fits

theorem ackOf_eq_sieve (kind : SendBufferKind) (buffer : SendBuffer) (seqNum : Nat) (array : List Nat) :
    ackOf kind buffer seqNum (some array) =
      (inBounds (Sieve.sieve (kind.covers seqNum) array.length buffer.packets buffer.packetsCount)).map fun r =>
        ⟨⟨r.1.1, r.1.2⟩, some (filled array r.2), r.2.length, r.2.map (·.buf)⟩ := by
  have none_yet : ([] : List SendBufferPacket).length ≤ array.length := Nat.zero_le _
  have looped := ackLoop_eq (kind.covers seqNum) buffer.packetsCount 0 (Sieve.start buffer.packets) none_yet
  rw [filled_nil, List.map_nil, List.length_nil] at looped
  rw [ackOf, looped, Sieve.sieve]
  cases Sieve.sieveFrom (kind.covers seqNum) array.length buffer.packetsCount 0 (Sieve.start buffer.packets) [] with
  | none => rfl
  | some r =>
      rw [inBounds_some, Option.bind_some]
      change (do let c ← inBounds (r.1.close buffer.packetsCount); pure _) = _
      cases r.1.close buffer.packetsCount <;> rfl

theorem takionSendBufferAck_eq (buffer : SendBuffer) (seqNum : Nat) (array : List Nat) :
    takionSendBufferAck buffer seqNum (some array) = (buffer.ack seqNum array.length).map fun r =>
      ⟨r.1, some (filled array r.2), r.2.length, r.2.map (·.buf)⟩ := by
  rw [takionSendBufferAck, ackOf_eq_sieve, ack_eq_sieve, SendBufferKind.covers]
  cases Sieve.sieve (covers seqNum) array.length buffer.packets buffer.packetsCount <;> rfl

theorem rudpSendBufferAck_eq (buffer : SendBuffer) (seqNum : Nat) (array : List Nat) :
    rudpSendBufferAck buffer seqNum (some array) = (buffer.rudpAck seqNum array.length).map fun r =>
      ⟨r.1, some (filled array r.2), r.2.length, r.2.map (·.buf)⟩ := by
  rw [rudpSendBufferAck, ackOf_eq_sieve, rudpAck, SendBufferKind.covers]
  cases Sieve.sieve (rudpCovers seqNum) array.length buffer.packets buffer.packetsCount <;> rfl

section Ack
variable (kind : SendBufferKind) {buffer : SendBuffer} (seqNum : Nat)
variable (inside : buffer.packetsCount ≤ buffer.packets.length)
include inside

theorem ackOf_eq (fits : (buffer.live.filter (kind.covers seqNum)).length ≤ array.length) :
    ∃ buffer', ackOf kind buffer seqNum (some array) =
        .ok ⟨buffer', some (filled array (buffer.live.filter (kind.covers seqNum))),
          (buffer.live.filter (kind.covers seqNum)).length, (buffer.live.filter (kind.covers seqNum)).map (·.buf)⟩ ∧
      buffer'.live = buffer.live.filter (!kind.covers seqNum ·) ∧
      buffer'.packets.length = buffer.packets.length ∧ buffer'.packetsCount ≤ buffer'.packets.length := by
  obtain ⟨cells, sieved, length, kept⟩ := Sieve.sieve_eq (kind.covers seqNum) array.length inside fits
  refine ⟨⟨cells, _⟩, ?_, kept, length, ?_⟩
  · rw [ackOf_eq_sieve, sieved]
    rfl
  · dsimp only
    rw [length]
    exact Sieve.kept_inside (kind.covers seqNum)

theorem ackOf_overrun (full : array.length < (buffer.live.filter (kind.covers seqNum)).length) :
    ackOf kind buffer seqNum (some array) = .error .outOfBounds := by
  rw [ackOf_eq_sieve, Sieve.sieve_overrun (kind.covers seqNum) array.length inside full]
  rfl

end Ack

/-! ## The numbers that are acknowledged -/

/-- The number `a` and what is serially before it. -/
def UpTo (n a : Nat) (packet : SendBufferPacket) : Prop := packet.seqNum = a ∨ Before n packet.seqNum a

instance (n a : Nat) (packet : SendBufferPacket) : Decidable (UpTo n a packet) := inferInstanceAs (Decidable (_ ∨ _))

theorem covers_iff (kind : SendBufferKind) {a : Nat} {packet : SendBufferPacket} (ha : a < 2 ^ kind.bits)
    (number : packet.seqNum < 2 ^ kind.bits) : kind.covers a packet = true ↔ UpTo (2 ^ kind.bits) a packet := by
  cases kind with
  | takion =>
      have before : seqNumLt 32 packet.seqNum a = true ↔ _ := seqNumLt_iff (by decide) number ha
      rw [SendBufferKind.covers, covers, coversNumber, Bool.or_eq_true, decide_eq_true_iff, seqNum32Lt, before]
      rfl
  | rudp =>
      have before : seqNumLt 16 packet.seqNum a = true ↔ _ := seqNumLt_iff (by decide) number ha
      rw [SendBufferKind.covers, rudpCovers, Bool.or_eq_true, decide_eq_true_iff, seqNum16Lt, before]
      rfl

/-- What is removed is reported in order and freed, and the rest stays as it was. -/
theorem ack_removes (kind : SendBufferKind) (buffer : SendBuffer) (a : Nat) (array : List Nat)
    (inside : buffer.packetsCount ≤ buffer.packets.length) (ha : a < 2 ^ kind.bits)
    (numbers : ∀ packet ∈ buffer.live, packet.seqNum < 2 ^ kind.bits)
    (room : (buffer.live.filter (UpTo (2 ^ kind.bits) a ·)).length ≤ array.length) :
    ∃ acked, ackOf kind buffer a (some array) = .ok acked ∧
      acked.buffer.live = buffer.live.filter (¬ UpTo (2 ^ kind.bits) a ·) ∧
      acked.ackedSeqNumsCount = (buffer.live.filter (UpTo (2 ^ kind.bits) a ·)).length ∧
      acked.ackedSeqNums = some ((buffer.live.filter (UpTo (2 ^ kind.bits) a ·)).map (·.seqNum) ++
        array.drop acked.ackedSeqNumsCount) ∧
      acked.freed = (buffer.live.filter (UpTo (2 ^ kind.bits) a ·)).map (·.buf) := by
  have removed : buffer.live.filter (kind.covers a) = buffer.live.filter (UpTo (2 ^ kind.bits) a ·) :=
    List.filter_congr fun packet member => by
      rw [Bool.eq_iff_iff, covers_iff kind ha (numbers packet member), decide_eq_true_iff]
  have kept : buffer.live.filter (!kind.covers a ·) = buffer.live.filter (¬ UpTo (2 ^ kind.bits) a ·) :=
    List.filter_congr fun packet member => by
      rw [Bool.eq_iff_iff, Bool.not_eq_true', Bool.eq_false_iff, ne_eq, covers_iff kind ha (numbers packet member),
        decide_eq_true_iff]
  rw [← removed] at room ⊢
  rw [← kept]
  obtain ⟨buffer', done, live, -⟩ := ackOf_eq kind a inside room
  exact ⟨_, done, live, rfl, rfl, rfl⟩

/-- Numbers on both sides of the wrap, in no order. -/
def wrapping : SendBuffer where
  packets := [⟨5, 1, 0, ⟨1, [1]⟩⟩, ⟨2 ^ 32 - 1, 0, 0, ⟨2, [2]⟩⟩, ⟨9, 0, 0, ⟨3, [3]⟩⟩, ⟨3, 2, 7, ⟨4, [4]⟩⟩, ⟨0, 0, 0, ⟨0, []⟩⟩]
  packetsCount := 4

theorem ack_removes_wrapping : ∃ acked, takionSendBufferAck wrapping 5 (some [0, 0, 0, 0]) = .ok acked ∧
    acked.buffer.live.map (·.seqNum) = [9] ∧ acked.freed.map (·.id) = [1, 2, 4] := by
  obtain ⟨acked, done, live, -, -, freed⟩ :=
    ack_removes .takion wrapping 5 [0, 0, 0, 0] (by decide) (by decide) (by decide) (by decide)
  refine ⟨acked, done, ?_, ?_⟩
  · rw [live]
    decide
  · rw [freed]
    decide

end SendBuffer
end Chiaki
