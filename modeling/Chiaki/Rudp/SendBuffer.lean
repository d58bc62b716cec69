import Chiaki.Takion.SendBuffer

/-!
# The RUDP send buffer

`rudpsendbuffer.c`. The array is that of the Takion send buffer and `push` is the same. The numbers have 16 bits,
and the timeout is longer.
-/

namespace Chiaki
open Memory

def rudpDataResendTimeoutMs : Nat := 400
def rudpDataResendTriesMax : Nat := 10

/-- A cumulative acknowledgement covers its number and what is serially before it. -/
def rudpCovers (cumulative : Nat) (packet : SendBufferPacket) : Bool :=
  packet.seqNum = cumulative || seqNum16Lt packet.seqNum cumulative

namespace SendBuffer

/-- `chiaki_rudp_send_buffer_ack`. -/
def rudpAck (buffer : SendBuffer) (seqNum capacity : Nat) : Checked (SendBuffer × List SendBufferPacket) := do
  let r ← inBounds (Sieve.sieve (rudpCovers seqNum) capacity buffer.packets buffer.packetsCount)
  pure (⟨r.1.1, r.1.2⟩, r.2)

/-- `rudp_send_buffer_resend` from `i` on, up to its end or to the next packet to give up. -/
def rudpResendFrom (buffer : SendBuffer) (now i : Nat) : Checked (SendBuffer × List HeapBlock × Option Nat) :=
  scanFrom rudpDataResendTimeoutMs rudpDataResendTriesMax now (buffer.packetsCount - i) i buffer []

/-- The array is at least as long as the number of packets in it. -/
def Sized (buffer : SendBuffer) (size : Nat) : Prop :=
  buffer.packets.length = size ∧ buffer.packetsCount ≤ size

variable {buffer : SendBuffer} {size : Nat}

theorem Sized.live_length (sized : buffer.Sized size) : buffer.live.length ≤ size := by
  rw [live, List.length_take]
  exact (min_le_left _ _).trans sized.2

theorem Sized.push (sized : buffer.Sized size) (seqNum now : Nat) (buf : HeapBlock) :
    (buffer.push seqNum now buf).1.Sized size ∧
      ((buffer.push seqNum now buf).1.live = buffer.live ∨
        (∀ packet ∈ buffer.live, packet.seqNum ≠ seqNum) ∧
          (buffer.push seqNum now buf).1.live = buffer.live ++ [⟨seqNum, 0, now, buf⟩]) := by
  by_cases takes : buffer.Takes seqNum
  · obtain ⟨buffer', pushed, live, length, count⟩ := @push_success buffer seqNum now buf takes
    rw [pushed]
    have length' := length.trans sized.1
    exact ⟨⟨length', length' ▸ count⟩, .inr ⟨takes.2, live⟩⟩
  · obtain ⟨err, refused, -⟩ := @push_refused buffer seqNum now buf takes
    rw [refused]
    exact ⟨sized, .inl rfl⟩

theorem Sized.rudpAck (sized : buffer.Sized size) {seqNum capacity : Nat}
    (fits : (buffer.live.filter (rudpCovers seqNum)).length ≤ capacity) :
    ∃ buffer', buffer.rudpAck seqNum capacity = .ok (buffer', buffer.live.filter (rudpCovers seqNum)) ∧
      buffer'.live = buffer.live.filter (!rudpCovers seqNum ·) ∧ buffer'.Sized size := by
  have inside : buffer.packetsCount ≤ buffer.packets.length := by
    rw [sized.1]
    exact sized.2
  obtain ⟨cells, sieved, length, kept⟩ := Sieve.sieve_eq (rudpCovers seqNum) capacity inside fits
  refine ⟨⟨cells, _⟩, ?_, kept, length.trans sized.1, ?_⟩
  · rw [SendBuffer.rudpAck, sieved]
    rfl
  · exact (List.length_filter_le _ _).trans sized.live_length

theorem Sized.rudpResendFrom (sized : buffer.Sized size) (now i : Nat) :
    ∃ buffer' sent giveUp, buffer.rudpResendFrom now i = .ok (buffer', sent, giveUp) ∧ buffer'.Sized size ∧
      buffer'.live.map identity = buffer.live.map identity ∧ ∀ k, giveUp = some k → k < size := by
  unfold SendBuffer.rudpResendFrom
  by_cases inside : i ≤ buffer.packetsCount
  · have length := sized.1
    have count := sized.2
    obtain ⟨buffer', sent, giveUp, resent, same, kept, -, bound⟩ :=
      @scanFrom_eq rudpDataResendTimeoutMs rudpDataResendTriesMax now (buffer.packetsCount - i) i buffer []
        (by omega)
    have length' : buffer'.packets.length = buffer.packets.length := by
      simpa using congrArg List.length kept
    refine ⟨buffer', sent, giveUp, by simpa using resent, ⟨length'.trans length, by omega⟩, ?_, ?_⟩
    · rw [live, live, List.map_take, List.map_take, kept, same]
    · intro k here
      have before := bound k here
      omega
  · rw [show buffer.packetsCount - i = 0 by omega]
    exact ⟨buffer, [], none, rfl, sized, rfl, by simp⟩

end SendBuffer
end Chiaki
