import Chiaki.Rudp.SendSystem
import Chiaki.Rudp.Codec

/-!
# Numbers of packets and their acknowledgements

A packet is pushed under the counter that is read after the one in it was taken. In between another thread can take
one. What is not acknowledged is removed only by the two callers of `ack` that do not have a counter from the peer.
-/

namespace Chiaki
open Machine

namespace RudpSystem

/-- The number under which a packet is buffered. -/
structure Numbers (s : RudpSystem) : Prop where
  buffered : ∀ packet ∈ s.sendBuffer.live, ∃ counter, read16 packet.buf.data 8 = .ok counter ∧
    packet.seqNum = (counter + 1) % 2 ^ 16
  distinct : (s.sendBuffer.live.map (·.seqNum)).Nodup
  shared : ∀ (i j : Nat) (call other : RudpSendCall) (p q n m : Nat), i ≠ j → s.calls[i]? = some call →
    s.calls[j]? = some other → call.phase.position = some p → call.phase.number = some n →
    other.phase.position = some q → other.phase.number = some m → p < q + 2 ^ 15 → q < p + 2 ^ 15 → n ≠ m

/-- The packet was acknowledged by the peer or has no retries left. -/
def Finished (s : RudpSystem) (packet : SendBufferPacket) : Prop :=
  (∃ counter ∈ s.counters, rudpCovers counter packet = true) ∨ rudpDataResendTriesMax ≤ packet.tries

/-- The run goes out of no bounds, has the right numbers in every state and removes only finished packets. -/
structure Reliable (first : Nat) (ops : List Op) : Prop where
  numbers : ∀ done, done <+: ops → ∃ s outs, run step (init first) done = .ok (s, outs) ∧ s.Numbers
  leaves : ∀ done op, done ++ [op] <+: ops → ∀ s outs s' out, run step (init first) done = .ok (s, outs) →
    step s op = .ok (s', out) → ∀ packet ∈ s.sendBuffer.live,
      SendBuffer.identity packet ∈ s'.sendBuffer.live.map SendBuffer.identity ∨ s'.Finished packet

/-- Nobody takes a counter between the two reads of a call, a message has the counter it should have, a message of
another type comes with one before it or finds nothing that 0 covers, and what is given up is alone. -/
def Careful (s : RudpSystem) : Op → Prop
  | .advance i _ => ∀ call, s.calls[i]? = some call → ∀ position counter,
      call.phase = .counted position counter → s.taken = position + 1
  | .handle lock => ∀ ackCounter message sub, s.receiving = .handling ackCounter message sub →
      if acknowledges message.subtype then 4 ≤ message.data.length
      else message.subtype = 0xC0 ∨ ackCounter ≠ none ∨ lock = false ∨
        ∀ packet ∈ s.sendBuffer.live, rudpCovers 0 packet = false
  | .ackGivenUp lock => ∀ now i seqNum, s.resend = .acking now i seqNum → lock = true →
      ∀ packet ∈ s.sendBuffer.live, rudpCovers seqNum packet = true →
        packet.seqNum = seqNum ∧ rudpDataResendTriesMax ≤ packet.tries
  | _ => True

def careful (s : RudpSystem) : Op → Bool
  | .advance i _ =>
      match s.calls[i]? with
      | some ⟨_, .counted position _⟩ => s.taken = position + 1
      | _ => true
  | .handle lock =>
      match s.receiving with
      | .handling ackCounter message _ =>
          if acknowledges message.subtype then 4 ≤ message.data.length
          else message.subtype = 0xC0 || ackCounter.isSome || !lock || s.sendBuffer.live.all (!rudpCovers 0 ·)
      | _ => true
  | .ackGivenUp lock =>
      match s.resend with
      | .acking _ _ seqNum =>
          !lock || s.sendBuffer.live.all fun packet =>
            !rudpCovers seqNum packet || (packet.seqNum = seqNum && rudpDataResendTriesMax ≤ packet.tries)
      | _ => true
  | _ => true

theorem careful_iff {s : RudpSystem} {op : Op} : s.careful op = true ↔ s.Careful op := by
  cases op with
  | advance i o =>
      simp only [careful, Careful]
      cases s.calls[i]? with
      | none => simp
      | some call =>
          obtain ⟨send, phase⟩ := call
          cases phase <;> simp
  | handle lock =>
      simp only [careful, Careful]
      cases s.receiving with
      | handling ackCounter message sub =>
          by_cases acks : acknowledges message.subtype
          · simp [acks]
          · simp [acks, Option.isSome_iff_ne_none, or_assoc]
      | _ => simp
  | ackGivenUp lock =>
      simp only [careful, Careful]
      cases s.resend with
      | acking now i seqNum =>
          cases lock with
          | false => simp
          | true => grind
      | _ => simp
  | _ => exact ⟨fun _ => trivial, fun _ => rfl⟩

instance (s : RudpSystem) (op : Op) : Decidable (s.Careful op) := decidable_of_iff _ careful_iff

/-! ## The invariant -/

/-- The counter and the number of a call follow from its position. -/
def RightPhase (first taken : Nat) : RudpSendPhase → Prop
  | .start => True
  | .counted position counter => position < taken ∧ counter = (first + position) % 2 ^ 16
  | .numbered position counter counterAck =>
      position < taken ∧ counter = (first + position) % 2 ^ 16 ∧ counterAck = (first + position + 1) % 2 ^ 16
  | .sent position counterAck packet =>
      position < taken ∧ counterAck = (first + position + 1) % 2 ^ 16 ∧
        read16 packet 8 = .ok ((first + position) % 2 ^ 16)
  | .returned _ position counterAck => position < taken ∧ counterAck = (first + position + 1) % 2 ^ 16

structure Sound (first : Nat) (s : RudpSystem) : Prop where
  counter : s.counter = (first + s.taken) % 2 ^ 16
  sized : s.sendBuffer.Sized rudpSendBufferSize
  index : ∀ now i, s.resend = .givingUp now i → i < rudpSendBufferSize
  read : ∀ c message sub, s.receiving = .handling (some c) message sub → c ∈ s.counters
  phases : ∀ (i : Nat) (call : RudpSendCall), s.calls[i]? = some call → RightPhase first s.taken call.phase
  positions : ∀ (i j : Nat) (call other : RudpSendCall) (p : Nat), s.calls[i]? = some call →
    s.calls[j]? = some other → call.phase.position = some p → other.phase.position = some p → i = j
  buffered : ∀ packet ∈ s.sendBuffer.live, ∃ counter, read16 packet.buf.data 8 = .ok counter ∧
    packet.seqNum = (counter + 1) % 2 ^ 16
  distinct : (s.sendBuffer.live.map (·.seqNum)).Nodup

theorem sound_init {first : Nat} (small : first < 2 ^ 16) : (init first).Sound first where
  counter := (Nat.mod_eq_of_lt small).symm
  sized := ⟨List.length_replicate, Nat.zero_le _⟩
  index := by simp [init]
  read := by simp [init]
  phases := by simp [init]
  positions := by simp [init]
  buffered := by simp [init, SendBuffer.live_init]
  distinct := by simp [init, SendBuffer.live_init]

variable {first : Nat} {s s' : RudpSystem}

theorem RightPhase.position_lt {taken p : Nat} {phase : RudpSendPhase} (right : RightPhase first taken phase)
    (position : phase.position = some p) : p < taken := by
  cases phase with
  | start => cases position
  | _ =>
      cases position
      exact right.1

theorem RightPhase.number_eq {taken p n : Nat} {phase : RudpSendPhase} (right : RightPhase first taken phase)
    (position : phase.position = some p) (number : phase.number = some n) : n = (first + p + 1) % 2 ^ 16 := by
  cases phase with
  | start => cases position
  | counted => cases number
  | numbered =>
      cases position
      cases number
      exact right.2.2
  | sent =>
      cases position
      cases number
      exact right.2.1
  | returned =>
      cases position
      cases number
      exact right.2

theorem RightPhase.mono {taken taken' : Nat} {phase : RudpSendPhase} (right : RightPhase first taken phase)
    (later : taken ≤ taken') : RightPhase first taken' phase := by
  cases phase with
  | start => trivial
  | _ => exact ⟨right.1.trans_le later, right.2⟩

theorem Sound.numbers (sound : s.Sound first) : s.Numbers where
  buffered := sound.buffered
  distinct := sound.distinct
  shared := by
    intro i j call other p q n m apart here there position number position' number' near near'
    have right := (sound.phases i call here).number_eq position number
    have right' := (sound.phases j other there).number_eq position' number'
    have different : p ≠ q := by
      rintro rfl
      exact apart (sound.positions i j call other p here there position position')
    omega

/-! ## One step -/

theorem read_packet (send : RudpSend) (counter : Nat) : read16 (send.packet counter) 8 = .ok (counter % 2 ^ 16) := by
  have inside : 8 + 2 ≤ (send.packet counter).length := by
    simp only [RudpSend.packet, length_serialize_cons, List.length_append, length_htons]
    omega
  rw [read16_eq inside]
  have here : ((send.packet counter).drop 8).take 2 = htons counter := by
    simp [RudpSend.packet, rudpMessageSerialize, htons, htonl]
  rw [here, ntoh_htons]

theorem Sound.setPhase (sound : s.Sound first) {i : Nat} {call : RudpSendCall} (here : s.calls[i]? = some call)
    {phase : RudpSendPhase} (right : RightPhase first s.taken phase)
    (fresh : ∀ p, phase.position = some p → call.phase.position = some p ∨
      ∀ (j : Nat) (other : RudpSendCall), s.calls[j]? = some other → other.phase.position ≠ some p) :
    (s.setPhase i call phase).Sound first where
  counter := sound.counter
  sized := sound.sized
  index := sound.index
  read := sound.read
  phases := by
    intro j other there
    simp only [RudpSystem.setPhase, List.getElem?_set] at there
    have old := sound.phases j other
    grind [RudpSystem.setPhase]
  positions := by
    intro j k other another p there there' position position'
    simp only [RudpSystem.setPhase, List.getElem?_set] at there there'
    have old := sound.positions
    grind
  buffered := sound.buffered
  distinct := sound.distinct

theorem Sound.getThenIncreaseCounter (sound : s.Sound first) : s.getThenIncreaseCounter.Sound first where
  counter := by
    have counter := sound.counter
    simp only [RudpSystem.getThenIncreaseCounter]
    split <;> omega
  sized := sound.sized
  index := sound.index
  read := sound.read
  phases i call here := (sound.phases i call here).mono (Nat.le_succ _)
  positions := sound.positions
  buffered := sound.buffered
  distinct := sound.distinct

/-- A packet that is no longer there has left for a reason. -/
def Keeps (s s' : RudpSystem) : Prop :=
  ∀ packet ∈ s.sendBuffer.live,
    SendBuffer.identity packet ∈ s'.sendBuffer.live.map SendBuffer.identity ∨ s'.Finished packet

theorem Keeps.of_live (same : s'.sendBuffer.live.map SendBuffer.identity = s.sendBuffer.live.map SendBuffer.identity) :
    Keeps s s' := by
  intro packet here
  left
  rw [same]
  exact List.mem_map_of_mem here

theorem Sound.receiving (sound : s.Sound first) {receiving : RudpReceiving} {counters : List Nat}
    (read : ∀ c message sub, receiving = .handling (some c) message sub → c ∈ counters) :
    { s with receiving := receiving, counters := counters }.Sound first :=
  ⟨sound.counter, sound.sized, sound.index, read, sound.phases, sound.positions, sound.buffered, sound.distinct⟩

theorem Sound.resend (sound : s.Sound first) {resend : ResendPhase}
    (index : ∀ now i, resend = .givingUp now i → i < rudpSendBufferSize) : { s with resend := resend }.Sound first :=
  ⟨sound.counter, sound.sized, index, sound.read, sound.phases, sound.positions, sound.buffered, sound.distinct⟩

theorem Sound.withBuffer (sound : s.Sound first) {buffer' : SendBuffer} (sized : buffer'.Sized rudpSendBufferSize)
    (fewer : (buffer'.live.map SendBuffer.identity).Sublist (s.sendBuffer.live.map SendBuffer.identity)) :
    { s with sendBuffer := buffer' }.Sound first where
  counter := sound.counter
  sized := sized
  index := sound.index
  read := sound.read
  phases := sound.phases
  positions := sound.positions
  buffered := by
    intro packet here
    obtain ⟨old, there, same⟩ := List.mem_map.mp (fewer.subset (List.mem_map_of_mem here))
    obtain ⟨number, buf⟩ := Prod.mk.inj same
    rw [← number, ← buf]
    exact sound.buffered old there
  distinct := by
    have numbers (packets : List SendBufferPacket) :
        packets.map (·.seqNum) = (packets.map SendBuffer.identity).map Prod.fst := by
      rw [List.map_map]
      rfl
    have distinct := sound.distinct
    rw [numbers] at distinct ⊢
    exact distinct.sublist (fewer.map _)

theorem Sound.ackBuffer (sound : s.Sound first) {lock : Bool} {seqNum capacity : Nat}
    (fits : lock = true → (s.sendBuffer.live.filter (rudpCovers seqNum)).length ≤ capacity) :
    ∃ buffer', s.ackBuffer lock seqNum capacity = .ok { s with sendBuffer := buffer' } ∧
      { s with sendBuffer := buffer' }.Sound first ∧
      ∀ packet ∈ s.sendBuffer.live, packet ∈ buffer'.live ∨ lock = true ∧ rudpCovers seqNum packet = true := by
  cases lock with
  | false => exact ⟨s.sendBuffer, rfl, sound, fun packet here => .inl here⟩
  | true =>
      obtain ⟨buffer', acked, live, sized⟩ := sound.sized.rudpAck (fits rfl)
      refine ⟨buffer', ?_, sound.withBuffer sized ?_, ?_⟩
      · rw [RudpSystem.ackBuffer, if_pos rfl, acked]
        rfl
      · rw [live]
        exact List.filter_sublist.map _
      · intro packet here
        rw [live, List.mem_filter]
        cases covered : rudpCovers seqNum packet with
        | false => exact .inl ⟨here, rfl⟩
        | true => exact .inr ⟨rfl, rfl⟩

theorem Sound.advance (sound : s.Sound first) {i : Nat} {call : RudpSendCall} (here : s.calls[i]? = some call)
    (o : RudpOutcome) (careful : Careful s (.advance i o)) :
    (s.advance i call o).Sound first ∧ Keeps s (s.advance i call o) := by
  have right := sound.phases i call here
  have alone := careful call here
  unfold RudpSystem.advance
  generalize phases : call.phase = phase at right alone
  cases phase with
  | start =>
      refine ⟨?_, .of_live rfl⟩
      apply sound.getThenIncreaseCounter.setPhase here
      · exact ⟨Nat.lt_succ_self _, sound.counter⟩
      · intro p same
        right
        intro j other there position
        obtain rfl := Option.some.inj same
        exact absurd ((sound.phases j other there).position_lt position) (Nat.lt_irrefl _)
  | counted position counter =>
      refine ⟨?_, .of_live rfl⟩
      have next := alone position counter rfl
      apply sound.setPhase here
      · refine ⟨right.1, right.2, ?_⟩
        rw [sound.counter, next, Nat.add_assoc]
      · exact fun p same => .inl (by rw [phases]; exact same)
  | numbered position counter counterAck =>
      have stays (p : Nat) (same : some position = some p) : call.phase.position = some p := by
        rw [phases]
        exact same
      obtain ⟨before, taken, number⟩ := right
      dsimp only
      split
      · refine ⟨sound.setPhase here ⟨before, number⟩ fun p same => .inl (stays p same), .of_live rfl⟩
      split
      · refine ⟨sound.setPhase here ⟨before, number⟩ fun p same => .inl (stays p same), .of_live rfl⟩
      · refine ⟨sound.setPhase here ⟨before, number, ?_⟩ fun p same => .inl (stays p same), .of_live rfl⟩
        rw [read_packet, taken, Nat.mod_mod]
  | sent position counterAck packet =>
      have stays (p : Nat) (same : some position = some p) : call.phase.position = some p := by
        rw [phases]
        exact same
      obtain ⟨before, number, written⟩ := right
      dsimp only
      split
      · obtain ⟨sized, pushed⟩ := sound.sized.push counterAck o.now ⟨i, packet⟩
        generalize s.sendBuffer.push counterAck o.now ⟨i, packet⟩ = r at sized pushed
        have buffer : { s with sendBuffer := r.1 }.Sound first ∧ Keeps s { s with sendBuffer := r.1 } := by
          rcases pushed with same | ⟨fresh, live⟩
          · exact ⟨sound.withBuffer sized (by rw [same]), .of_live (by rw [← same])⟩
          · refine ⟨⟨sound.counter, sized, sound.index, sound.read, sound.phases, sound.positions, ?_, ?_⟩, ?_⟩
            · intro other there
              dsimp only at there
              rw [live, List.mem_append, List.mem_singleton] at there
              rcases there with old | rfl
              · exact sound.buffered other old
              · exact ⟨_, written, by rw [number, Nat.mod_add_mod]⟩
            · dsimp only
              rw [live, List.map_append]
              apply List.Nodup.append sound.distinct (List.nodup_singleton _)
              simpa using fresh
            · intro other there
              left
              dsimp only
              rw [live, List.map_append]
              exact List.mem_append_left _ (List.mem_map_of_mem there)
        exact ⟨buffer.1.setPhase here ⟨before, number⟩ fun p same => .inl (stays p same), buffer.2⟩
      · exact ⟨sound.setPhase here ⟨before, number⟩ fun p same => .inl (stays p same), .of_live rfl⟩
  | returned err position counterAck => exact ⟨sound, .of_live rfl⟩

theorem exists_receive (s : RudpSystem) (alloc : Nat → Bool) (recvBufSize : Nat) (datagram : Bytes) :
    ∃ receiving, s.receive alloc recvBufSize datagram = .ok { s with receiving := receiving } ∧
      ∀ c message sub, receiving ≠ .handling (some c) message sub := by
  unfold RudpSystem.receive
  have short : (datagram.take (rudpRecvBufSize - recvBufSize)).length < 2 ^ 31 :=
    ((List.length_take_le _ _).trans (Nat.sub_le _ _)).trans_lt (by decide)
  dsimp only
  split
  · exact ⟨_, rfl, by simp⟩
  · rename_i long
    obtain ⟨r, parsed, -⟩ :=
      rudpMessageParse_within alloc (Nat.zero_add _) (Nat.le_of_lt (Nat.lt_of_not_le long)) short le_rfl
    rw [rudpParse, parsed, ok_bind]
    split
    · split
      · exact ⟨_, rfl, by simp⟩
      · exact ⟨_, rfl, by simp⟩
    · exact ⟨_, rfl, by simp⟩

theorem Sound.alone (sound : s.Sound first) {seqNum : Nat}
    (same : ∀ packet ∈ s.sendBuffer.live, rudpCovers seqNum packet = true →
      packet.seqNum = seqNum ∧ rudpDataResendTriesMax ≤ packet.tries) :
    (s.sendBuffer.live.filter (rudpCovers seqNum)).length ≤ 1 := by
  have distinct := sound.distinct.sublist
    ((List.filter_sublist (p := rudpCovers seqNum) (l := s.sendBuffer.live)).map (·.seqNum))
  have replicated : (s.sendBuffer.live.filter (rudpCovers seqNum)).map (·.seqNum) =
      List.replicate (s.sendBuffer.live.filter (rudpCovers seqNum)).length seqNum := by
    apply List.eq_replicate_iff.mpr
    refine ⟨List.length_map _, fun number member => ?_⟩
    obtain ⟨packet, there, rfl⟩ := List.mem_map.mp member
    obtain ⟨live, covered⟩ := List.mem_filter.mp there
    exact (same packet live covered).1
  rw [replicated, List.nodup_replicate] at distinct
  exact distinct

theorem Sound.scan (sound : s.Sound first) (now i : Nat) :
    ∃ s', s.scan now i = .ok s' ∧ s'.Sound first ∧ Keeps s s' := by
  obtain ⟨buffer', sent, giveUp, resent, sized, same, bound⟩ := sound.sized.rudpResendFrom now i
  unfold RudpSystem.scan
  rw [resent, ok_bind]
  refine ⟨_, rfl, (sound.withBuffer sized (by rw [same])).resend ?_, .of_live same⟩
  intro now' i' found
  cases giveUp with
  | none => cases found
  | some k =>
      obtain ⟨rfl, rfl⟩ := ResendPhase.givingUp.inj found
      exact bound k rfl

theorem Sound.ackPacket (sound : s.Sound first) (lock : Bool) (counter : Nat) :
    ∃ buffer', s.ackPacket lock counter = .ok { s with sendBuffer := buffer' } ∧
      { s with sendBuffer := buffer' }.Sound first ∧
      ∀ packet ∈ s.sendBuffer.live, packet ∈ buffer'.live ∨ lock = true ∧ rudpCovers counter packet = true :=
  sound.ackBuffer fun _ => (List.length_filter_le _ _).trans sound.sized.live_length

theorem afterMessage_some {ackCounter : Option Nat} {sub : List RudpParsed} {c : Nat} {message : RudpParsed}
    {sub' : List RudpParsed} (here : afterMessage ackCounter sub = .handling (some c) message sub') :
    ackCounter = some c := by
  cases sub with
  | nil => cases here
  | cons next rest =>
      cases here
      rfl

theorem Sound.handle (sound : s.Sound first) {lock : Bool} {ackCounter : Option Nat} {message : RudpParsed}
    {sub : List RudpParsed} (here : s.receiving = .handling ackCounter message sub)
    (careful : if acknowledges message.subtype then 4 ≤ message.data.length
      else message.subtype = 0xC0 ∨ ackCounter ≠ none ∨ lock = false ∨
        ∀ packet ∈ s.sendBuffer.live, rudpCovers 0 packet = false) :
    ∃ s', s.handle lock ackCounter message sub = .ok s' ∧ s'.Sound first ∧ Keeps s s' := by
  have known (c : Nat) (next : RudpParsed) (rest : List RudpParsed)
      (after : afterMessage ackCounter sub = .handling (some c) next rest) : c ∈ s.counters := by
    have before := afterMessage_some after
    subst before
    exact sound.read c message sub here
  unfold RudpSystem.handle
  by_cases acks : acknowledges message.subtype
  · rw [if_pos acks] at careful ⊢
    rw [read16_eq careful, ok_bind]
    generalize ntoh ((message.data.drop 2).take 2) = counter
    have sound' : { s with
        counters := s.counters ++ [counter], receiving := afterMessage (some counter) sub }.Sound first := by
      apply sound.receiving
      intro c next rest after
      obtain rfl := Option.some.inj (afterMessage_some after)
      exact List.mem_append_right _ (List.mem_singleton_self _)
    obtain ⟨buffer', acked, sound'', left⟩ := sound'.ackPacket lock counter
    refine ⟨_, acked, sound'', fun packet there => ?_⟩
    rcases left packet there with still | ⟨-, covered⟩
    · exact .inl (List.mem_map_of_mem still)
    · exact .inr (.inl ⟨counter, List.mem_append_right _ (List.mem_singleton_self _), covered⟩)
  · rw [if_neg acks] at careful ⊢
    have sound' : { s with receiving := afterMessage ackCounter sub }.Sound first := sound.receiving known
    by_cases finish : message.subtype = 0xC0
    · rw [if_pos finish]
      exact ⟨_, rfl, sound', .of_live rfl⟩
    · rw [if_neg finish]
      obtain ⟨buffer', acked, sound'', left⟩ := sound'.ackPacket lock (ackCounter.getD 0)
      refine ⟨_, acked, sound'', fun packet there => ?_⟩
      rcases left packet there with still | ⟨locked, covered⟩
      · exact .inl (List.mem_map_of_mem still)
      · cases ackCounter with
        | some c => exact .inr (.inl ⟨c, sound.read c message sub here, covered⟩)
        | none =>
            rcases careful with finished | something | unlocked | nothing
            · exact absurd finished finish
            · exact absurd rfl something
            · rw [unlocked] at locked
              cases locked
            · have uncovered := nothing packet there
              rw [Option.getD_none, uncovered] at covered
              cases covered

theorem Sound.step (sound : s.Sound first) {op : Op} (careful : Careful s op) :
    ∃ s', step s op = .ok (s', ()) ∧ s'.Sound first ∧ Keeps s s' := by
  cases op with
  | call send =>
      refine ⟨_, rfl, ?_, .of_live rfl⟩
      refine ⟨sound.counter, sound.sized, sound.index, sound.read, ?_, ?_, sound.buffered, sound.distinct⟩
      · intro i call here
        dsimp only at here
        have old := sound.phases i call
        grind [RightPhase]
      · intro i j call other p here there position position'
        dsimp only at here there
        have old := sound.positions i j call other p
        grind [RudpSendPhase.position]
  | advance i o =>
      simp only [RudpSystem.step]
      cases here : s.calls[i]? with
      | none => exact ⟨s, rfl, sound, .of_live rfl⟩
      | some call =>
          obtain ⟨sound', keeps⟩ := sound.advance here o careful
          exact ⟨_, rfl, sound', keeps⟩
  | takeCounter => exact ⟨_, rfl, sound.getThenIncreaseCounter, .of_live rfl⟩
  | receive alloc recvBufSize datagram =>
      simp only [RudpSystem.step]
      split
      · obtain ⟨receiving, received, nothing⟩ := s.exists_receive alloc recvBufSize datagram
        rw [received]
        refine ⟨_, rfl, sound.receiving fun c message sub here => ?_, .of_live rfl⟩
        exact absurd here (nothing c message sub)
      · exact ⟨s, rfl, sound, .of_live rfl⟩
  | handle lock =>
      simp only [RudpSystem.step]
      cases here : s.receiving with
      | handling ackCounter message sub =>
          obtain ⟨s', handled, sound', keeps⟩ := sound.handle here (careful ackCounter message sub here)
          simp only [handled, ok_bind]
          exact ⟨_, rfl, sound', keeps⟩
      | _ => exact ⟨s, rfl, sound, .of_live rfl⟩
  | resend now =>
      simp only [RudpSystem.step]
      split
      · obtain ⟨s', scanned, sound', keeps⟩ := sound.scan now 0
        rw [scanned]
        exact ⟨_, rfl, sound', keeps⟩
      · exact ⟨s, rfl, sound, .of_live rfl⟩
  | readGivenUp =>
      simp only [RudpSystem.step]
      cases here : s.resend with
      | givingUp now i =>
          have inside : i < s.sendBuffer.packets.length := by
            rw [sound.sized.1]
            exact sound.index now i here
          simp only [List.getElem?_eq_getElem inside, inBounds_some, ok_bind]
          exact ⟨_, rfl, sound.resend (by simp), .of_live rfl⟩
      | _ => exact ⟨s, rfl, sound, .of_live rfl⟩
  | ackGivenUp lock =>
      simp only [RudpSystem.step]
      cases here : s.resend with
      | acking now i seqNum =>
          have alone := careful now i seqNum here
          obtain ⟨buffer', acked, sound', left⟩ := sound.ackBuffer fun locked => sound.alone (alone locked)
          simp only [acked, ok_bind]
          refine ⟨_, rfl, sound'.resend (by simp), fun packet there => ?_⟩
          rcases left packet there with still | ⟨locked, covered⟩
          · exact .inl (List.mem_map_of_mem still)
          · exact .inr (.inr (alone locked packet there covered).2)
      | _ => exact ⟨s, rfl, sound, .of_live rfl⟩
  | resume =>
      simp only [RudpSystem.step]
      split
      · obtain ⟨s', scanned, sound', keeps⟩ := sound.scan _ _
        rw [scanned]
        exact ⟨_, rfl, sound', keeps⟩
      · exact ⟨s, rfl, sound, .of_live rfl⟩

/-! ## Runs -/

theorem reliable_of_careful {ops : List Op} (small : first < 2 ^ 16) (careful : Along step Careful (init first) ops) :
    Reliable first ops := by
  have reaches (done : List Op) (isPrefix : done <+: ops) :
      ∃ s outs, run step (init first) done = .ok (s, outs) ∧ s.Sound first ∧
        Along step Careful s (ops.drop done.length) := by
    obtain ⟨later, rfl⟩ := isPrefix
    obtain ⟨s, outs, ran, sound, -⟩ := run_invariant (Sound first) (fun _ => True)
      (fun s op sound now => by
        obtain ⟨s', stepped, sound', -⟩ := sound.step now
        exact ⟨s', (), stepped, sound', trivial⟩)
      (sound_init small) careful.append
    refine ⟨s, outs, ran, sound, ?_⟩
    rw [List.drop_left]
    exact careful.rest ran
  constructor
  · intro done isPrefix
    obtain ⟨s, outs, ran, sound, -⟩ := reaches done isPrefix
    exact ⟨s, outs, ran, sound.numbers⟩
  · intro done op isPrefix s outs s' out ran stepped
    obtain ⟨t, outs', ran', sound, rest⟩ := reaches done ((List.prefix_append done [op]).trans isPrefix)
    obtain ⟨rfl, -⟩ := Prod.mk.inj (Except.ok.inj (ran.symm.trans ran'))
    obtain ⟨later, rfl⟩ := isPrefix
    rw [List.append_assoc, List.drop_left] at rest
    obtain ⟨u, stepped', -, keeps⟩ := sound.step rest.1
    obtain ⟨rfl, -⟩ := Prod.mk.inj (Except.ok.inj (stepped.symm.trans stepped'))
    exact keeps

/-- A message is sent and acknowledged. -/
theorem reliable_acknowledged : Reliable 0xFFFF
    [.call (.ctrlMessage [1, 2]), .advance 0 {}, .advance 0 {}, .advance 0 {}, .advance 0 {}, .takeCounter,
      .receive (fun _ => true) 0 [0xC0, 0x0C, 0x24, 0x4F, 0x24, 0x4F, 0x24, 0x30, 0, 1, 0, 0], .handle true] := by
  apply reliable_of_careful (by decide)
  decide +kernel

/-- Both calls take a counter before one reads it again. -/
def crossedSends : List Op :=
  [.call (.ctrlMessage [1]), .call (.ctrlMessage [2]), .advance 0 {}, .advance 1 {}, .advance 0 {}, .advance 0 {},
    .advance 0 {}]

/-- The packet that was pushed first is given up when one with the number before it is in the buffer. -/
def givenUpTogether : List Op :=
  [.call (.ctrlMessage [1]), .call (.ctrlMessage [2]), .advance 0 {}, .advance 0 {}, .advance 1 {}, .advance 1 {},
    .advance 1 {}, .advance 1 {}] ++ (List.range 10).map (fun k => .resend (401 * (k + 1))) ++
    [.advance 0 {}, .advance 0 { now := 4010 }, .resend 4411, .readGivenUp, .ackGivenUp true]

/-- The numbers in the buffer with the counters in their packets. -/
def pushed (s : RudpSystem) : List (Nat × Option Nat) :=
  s.sendBuffer.live.map fun packet => (packet.seqNum, (read16 packet.buf.data 8).toOption)

theorem Numbers.pushed (numbers : s.Numbers) {number counter : Nat} (here : (number, some counter) ∈ s.pushed) :
    number = (counter + 1) % 2 ^ 16 := by
  obtain ⟨packet, there, same⟩ := List.mem_map.mp here
  obtain ⟨counter', read, follows⟩ := numbers.buffered packet there
  obtain ⟨rfl, written⟩ := Prod.mk.inj same
  rw [read] at written
  cases written
  exact follows

theorem not_reliable : ¬ Reliable 0x200 crossedSends ∧ ¬ Reliable 0x200 givenUpTogether := by
  constructor
  · intro reliable
    obtain ⟨s, outs, ran, numbers⟩ := reliable.numbers _ List.prefix_rfl
    have found : (run step (init 0x200) crossedSends).toOption.map (·.1.pushed) = some [(0x202, some 0x200)] := by
      decide +kernel
    rw [ran] at found
    have wrong := numbers.pushed (Option.some.inj found ▸ List.mem_singleton_self _)
    exact absurd wrong (by decide)
  · intro reliable
    obtain ⟨s, outs, ran, -⟩ := reliable.numbers _ List.prefix_rfl
    have failed : (run step (init 0x200) givenUpTogether).isOk = false := by decide +kernel
    rw [ran] at failed
    cases failed

end RudpSystem
end Chiaki
