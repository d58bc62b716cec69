import Chiaki.Lib.Sieve
import Chiaki.Common
import Chiaki.SeqNum

/-!
# The send buffer

`takionsendbuffer.c`. Every function runs with the mutex of the buffer held, but for the read of the
number of a packet that is given up.
-/

namespace Chiaki
open Memory

def takionDataResendTimeoutMs : Nat := 200
def takionDataResendTriesMax : Nat := 10

/-- A block of the heap; `id` tells it from every other block that was ever allocated. -/
structure HeapBlock where
  id : Nat
  data : Bytes
  deriving DecidableEq, Repr

/-- `ChiakiTakionSendBufferPacket`. -/
structure SendBufferPacket where
  seqNum : Nat
  tries : Nat
  lastSendMs : Nat
  buf : HeapBlock
  deriving DecidableEq, Repr

/-- `packets_size` is the length of the array. Cells from `packets_count` on keep what they held. -/
structure SendBuffer where
  packets : List SendBufferPacket
  packetsCount : Nat
  deriving DecidableEq, Repr

namespace SendBuffer

/-- `chiaki_takion_send_buffer_init`. -/
def init (size : Nat) : SendBuffer where
  packets := List.replicate size ⟨0, 0, 0, ⟨0, []⟩⟩
  packetsCount := 0

def live (buffer : SendBuffer) : List SendBufferPacket := buffer.packets.take buffer.packetsCount

/-- `chiaki_takion_send_buffer_push`. On an error `buf` is freed. -/
def push (buffer : SendBuffer) (seqNum now : Nat) (buf : HeapBlock) : SendBuffer × ErrorCode :=
  if buffer.packetsCount ≥ buffer.packets.length then (buffer, .overflow)
  else if buffer.live.any (·.seqNum = seqNum) then (buffer, .invalidData)
  else
    ({ packets := buffer.packets.set buffer.packetsCount ⟨seqNum, 0, now, buf⟩
       packetsCount := buffer.packetsCount + 1 }, .success)

/-- A cumulative acknowledgement covers its number and what is serially before it. -/
def coversNumber (cumulative seqNum : Nat) : Bool :=
  seqNum = cumulative || seqNum32Lt seqNum cumulative

def covers (cumulative : Nat) (packet : SendBufferPacket) : Bool :=
  coversNumber cumulative packet.seqNum

/-- The loop of `ack`. The numbers of the removed packets go to an array of `capacity` cells. -/
def ackFrom (seqNum capacity : Nat) : (left i : Nat) → Sieve SendBufferPacket →
    (acked : List SendBufferPacket) → Checked (Sieve SendBufferPacket × List SendBufferPacket)
  | 0, _, sieve, acked => pure (sieve, acked)
  | left + 1, i, sieve, acked => do
      let packet ← inBounds sieve.cells[i]?
      if covers seqNum packet then
        if acked.length ≥ capacity then .error .outOfBounds
        else do
          let sieve ← inBounds (sieve.remove i)
          ackFrom seqNum capacity left (i + 1) sieve (acked ++ [packet])
      else ackFrom seqNum capacity left (i + 1) sieve acked

/-- `chiaki_takion_send_buffer_ack`: the removed packets, whose blocks are freed. -/
def ack (buffer : SendBuffer) (seqNum capacity : Nat) :
    Checked (SendBuffer × List SendBufferPacket) := do
  let r ← ackFrom seqNum capacity buffer.packetsCount 0 (Sieve.start buffer.packets) []
  let c ← inBounds (r.1.close buffer.packetsCount)
  pure (⟨c.1, c.2⟩, r.2)

/-- The loop of `takion_send_buffer_resend` from `i` on, until it ends or comes to a packet to give up:
the packets that were sent again, and the index of that packet. -/
def resendFrom (now : Nat) : (left i : Nat) → SendBuffer → (sent : List HeapBlock) →
    Checked (SendBuffer × List HeapBlock × Option Nat)
  | 0, _, buffer, sent => pure (buffer, sent, none)
  | left + 1, i, buffer, sent => do
      let packet ← inBounds buffer.packets[i]?
      if (now + 2 ^ 64 - packet.lastSendMs) % 2 ^ 64 > takionDataResendTimeoutMs then
        if packet.tries ≥ takionDataResendTriesMax then pure (buffer, sent, some i)
        else
          resendFrom now left (i + 1)
            { buffer with
              packets := buffer.packets.set i
                { packet with lastSendMs := now, tries := packet.tries + 1 } }
            (sent ++ [packet.buf])
      else resendFrom now left (i + 1) buffer sent

/-- The same loop for any timeout and any number of tries. -/
def scanFrom (timeoutMs triesMax now : Nat) : (left i : Nat) → SendBuffer → (sent : List HeapBlock) →
    Checked (SendBuffer × List HeapBlock × Option Nat)
  | 0, _, buffer, sent => pure (buffer, sent, none)
  | left + 1, i, buffer, sent => do
      let packet ← inBounds buffer.packets[i]?
      if (now + 2 ^ 64 - packet.lastSendMs) % 2 ^ 64 > timeoutMs then
        if packet.tries ≥ triesMax then pure (buffer, sent, some i)
        else
          scanFrom timeoutMs triesMax now left (i + 1)
            { buffer with
              packets := buffer.packets.set i
                { packet with lastSendMs := now, tries := packet.tries + 1 } }
            (sent ++ [packet.buf])
      else scanFrom timeoutMs triesMax now left (i + 1) buffer sent

/-! ## What they do to the packets -/

theorem live_init (size : Nat) : (init size).live = [] := rfl

/-- There is room for a packet of this number and no packet of the same number. -/
def Takes (buffer : SendBuffer) (seqNum : Nat) : Prop :=
  buffer.packetsCount < buffer.packets.length ∧ ∀ packet ∈ buffer.live, packet.seqNum ≠ seqNum

theorem push_success {buffer : SendBuffer} {seqNum now : Nat} {buf : HeapBlock}
    (takes : buffer.Takes seqNum) :
    ∃ buffer', buffer.push seqNum now buf = (buffer', .success) ∧
      buffer'.live = buffer.live ++ [⟨seqNum, 0, now, buf⟩] ∧
      buffer'.packets.length = buffer.packets.length ∧
      buffer'.packetsCount ≤ buffer'.packets.length := by
  obtain ⟨room, fresh⟩ := takes
  have none_same : ¬ (buffer.live.any fun packet => packet.seqNum = seqNum) = true := by
    intro same
    obtain ⟨packet, member, equal⟩ := List.any_eq_true.mp same
    exact fresh packet member (of_decide_eq_true equal)
  refine ⟨_, by rw [push, if_neg (by omega), if_neg none_same], ?_, ?_, ?_⟩
  · rw [live, live, List.take_add_one, List.take_set_of_le le_rfl, List.getElem?_set_self room]
    rfl
  · exact List.length_set
  · rw [List.length_set]
    exact room

theorem push_refused {buffer : SendBuffer} {seqNum now : Nat} {buf : HeapBlock}
    (refused : ¬ buffer.Takes seqNum) :
    ∃ err, buffer.push seqNum now buf = (buffer, err) ∧ err ≠ .success := by
  unfold push
  by_cases full : buffer.packetsCount ≥ buffer.packets.length
  · rw [if_pos full]
    exact ⟨_, rfl, by decide⟩
  · rw [if_neg full]
    have same : (buffer.live.any fun packet => packet.seqNum = seqNum) = true := by
      by_contra none
      refine refused ⟨by omega, fun packet member equal => none ?_⟩
      exact List.any_eq_true.mpr ⟨packet, member, decide_eq_true equal⟩
    rw [if_pos same]
    exact ⟨_, rfl, by decide⟩

section Ack
variable {buffer : SendBuffer} (seqNum capacity : Nat)
variable (inside : buffer.packetsCount ≤ buffer.packets.length)

theorem ackFrom_eq_sieve (left i : Nat) (s : Sieve SendBufferPacket) (acked : List SendBufferPacket) :
    ackFrom seqNum capacity left i s acked = inBounds (Sieve.sieveFrom (covers seqNum) capacity left i s acked) := by
  induction left generalizing i s acked with
  | zero => rfl
  | succ left ih =>
      rw [ackFrom, Sieve.sieveFrom]
      cases s.cells[i]? with
      | none => rfl
      | some packet =>
          rw [inBounds_some, ok_bind]
          dsimp only
          split
          · split
            · rfl
            · cases s.remove i with
              | none => rfl
              | some s => exact ih (i + 1) s (acked ++ [packet])
          · exact ih (i + 1) s acked

theorem ack_eq_sieve : buffer.ack seqNum capacity =
    (inBounds (Sieve.sieve (covers seqNum) capacity buffer.packets buffer.packetsCount)).map fun r =>
      (⟨r.1.1, r.1.2⟩, r.2) := by
  rw [ack, ackFrom_eq_sieve, Sieve.sieve]
  cases Sieve.sieveFrom (covers seqNum) capacity buffer.packetsCount 0 (Sieve.start buffer.packets) [] with
  | none => rfl
  | some r =>
      rw [inBounds_some, ok_bind, Option.bind_some]
      cases r.1.close buffer.packetsCount <;> rfl

include inside

theorem ack_eq (fits : (buffer.live.filter (covers seqNum)).length ≤ capacity) :
    ∃ buffer', buffer.ack seqNum capacity = .ok (buffer', buffer.live.filter (covers seqNum)) ∧
      buffer'.live = buffer.live.filter (!covers seqNum ·) ∧
      buffer'.packets.length = buffer.packets.length ∧
      buffer'.packetsCount ≤ buffer'.packets.length := by
  obtain ⟨cells, sieved, length, kept⟩ := Sieve.sieve_eq (covers seqNum) capacity inside fits
  refine ⟨⟨cells, _⟩, ?_, kept, length, ?_⟩
  · rw [ack_eq_sieve, sieved]
    rfl
  · dsimp only
    rw [length]
    exact Sieve.kept_inside (covers seqNum)

theorem ack_overrun (full : capacity < (buffer.live.filter (covers seqNum)).length) :
    buffer.ack seqNum capacity = .error .outOfBounds := by
  rw [ack_eq_sieve, Sieve.sieve_overrun (covers seqNum) capacity inside full]
  rfl

end Ack

/-! ## Resending -/

/-- What a resend leaves alone: which packet is where. -/
def identity (packet : SendBufferPacket) : Nat × HeapBlock := (packet.seqNum, packet.buf)

theorem resendFrom_eq_scanFrom (now left i : Nat) (buffer : SendBuffer) (sent : List HeapBlock) :
    resendFrom now left i buffer sent =
      scanFrom takionDataResendTimeoutMs takionDataResendTriesMax now left i buffer sent := by
  induction left generalizing i buffer sent with
  | zero => rfl
  | succ left ih =>
      rw [resendFrom, scanFrom]
      congr 1
      funext packet
      split
      · split
        · rfl
        · exact ih (i + 1) _ _
      · exact ih (i + 1) buffer sent

theorem scanFrom_eq (timeoutMs triesMax now : Nat) {left i : Nat} {buffer : SendBuffer} (sent : List HeapBlock)
    (all : i + left ≤ buffer.packets.length) :
    ∃ buffer' sent' giveUp,
      scanFrom timeoutMs triesMax now left i buffer sent = .ok (buffer', sent ++ sent', giveUp) ∧
      buffer'.packetsCount = buffer.packetsCount ∧
      buffer'.packets.map identity = buffer.packets.map identity ∧
      (∀ block ∈ sent', ∃ packet ∈ buffer.packets.take (i + left), packet.buf = block) ∧
      ∀ k, giveUp = some k → k < i + left := by
  induction left generalizing i buffer sent with
  | zero =>
      refine ⟨buffer, [], none, ?_, rfl, rfl, by simp, by simp⟩
      rw [List.append_nil]
      rfl
  | succ left ih =>
      have inside : i < buffer.packets.length := by omega
      have next : i + (left + 1) = i + 1 + left := by omega
      have member : buffer.packets[i] ∈ buffer.packets.take (i + 1 + left) :=
        List.mem_take_iff_getElem.mpr ⟨i, by omega, rfl⟩
      rw [scanFrom, List.getElem?_eq_getElem inside, inBounds_some, ok_bind, next]
      split
      · split
        · refine ⟨buffer, [], some i, ?_, rfl, rfl, by simp, ?_⟩
          · rw [List.append_nil]
            rfl
          · intro k same
            obtain rfl := Option.some.inj same
            omega
        · obtain ⟨buffer', sent', giveUp, rest, count, same, blocks, bound⟩ := @ih (i + 1)
            { buffer with
              packets := buffer.packets.set i { buffer.packets[i] with
                lastSendMs := now, tries := buffer.packets[i].tries + 1 } }
            (sent ++ [buffer.packets[i].buf]) (by rw [List.length_set]; omega)
          have kept : (buffer.packets.set i { buffer.packets[i] with
              lastSendMs := now, tries := buffer.packets[i].tries + 1 }).map identity =
              buffer.packets.map identity := by
            apply List.ext_getElem (by simp)
            intro j low high
            rw [List.getElem_map, List.getElem_map, List.getElem_set]
            split
            · rename_i same
              subst same
              rfl
            · rfl
          refine ⟨buffer', buffer.packets[i].buf :: sent', giveUp, ?_, count, same.trans kept, ?_, bound⟩
          · rw [rest, List.append_assoc]
            rfl
          · intro block there
            rcases List.mem_cons.mp there with rfl | there
            · exact ⟨_, member, rfl⟩
            · obtain ⟨packet, found, rfl⟩ := blocks block there
              obtain ⟨j, bound, rfl⟩ := List.mem_take_iff_getElem.mp found
              rw [List.length_set] at bound
              refine ⟨buffer.packets.get ⟨j, by omega⟩, List.mem_take_iff_getElem.mpr ⟨j, bound, rfl⟩, ?_⟩
              rw [List.getElem_set]
              split
              · rename_i same
                subst same
                rfl
              · rfl
      · obtain ⟨buffer', sent', giveUp, rest, count, same, blocks, bound⟩ :=
          @ih (i + 1) buffer sent (by omega)
        exact ⟨buffer', sent', giveUp, rest, count, same, blocks, bound⟩

end SendBuffer
end Chiaki
