import Chiaki.Takion.SendSystem

/-!
# What a step of the senders does

One case for each thing that can happen, with all that the invariants need to know about it.
-/

namespace Chiaki
open Machine

/-- A packet that can be authenticated. -/
def ControlPacket (packet : Bytes) : Prop :=
  packet.head? = some TakionPacketType.control.value ∧ 13 ≤ packet.length

theorem SendMessageArgs.head_control (args : SendMessageArgs) (tagRemote keyPos : Nat) :
    ControlPacket (args.head tagRemote keyPos) := by
  refine ⟨rfl, ?_⟩
  simp [SendMessageArgs.head, takionMessageHeaderSize]

theorem ControlPacket.append {packet : Bytes} (h : ControlPacket packet) (more : Bytes) :
    ControlPacket (packet ++ more) := by
  constructor
  · rw [List.head?_append, h.1]
    rfl
  · rw [List.length_append]
    have := h.2
    omega

theorem ControlPacket.mac {packet : Bytes} (h : ControlPacket packet) {lib : CryptoLib} {gmacOk : Bool}
    {crypt : Option GKCrypt} {keyPos : Nat} {r : PacketMac}
    (computed : packetMac lib gmacOk crypt packet keyPos = .ok r) : ∃ macs, r.result = .ok macs := by
  obtain ⟨rest, rfl⟩ : ∃ rest, packet = TakionPacketType.control.value :: rest := by
    cases packet with
    | nil => simp [ControlPacket] at h
    | cons first rest => exact ⟨rest, by rw [Option.some.inj h.1]⟩
  have type : TakionPacketType.ofByte TakionPacketType.control.value = some .control := by decide
  have length := h.2
  simp only [packetMac, type, TakionPacketType.offsets, TakionPacketType.macOffset,
    TakionPacketType.keyPosOffset, Option.bind_some, Option.map_some] at computed
  rw [List.length_cons] at length
  have enough : ¬ (decide ((TakionPacketType.control.value :: rest).length < 5 + gkcryptGmacSize) ||
      decide ((TakionPacketType.control.value :: rest).length < 9 + 4)) = true := by
    rw [Bool.or_eq_true, decide_eq_true_eq, decide_eq_true_eq, List.length_cons, gkcryptGmacSize]
    omega
  rw [if_neg enough] at computed
  obtain ⟨macOld, -, computed⟩ := bind_eq_ok computed
  obtain ⟨written, -, computed⟩ := bind_eq_ok computed
  obtain ⟨mac, -, computed⟩ := bind_eq_ok computed
  obtain rfl := Except.ok.inj computed
  exact ⟨_, rfl⟩

namespace SendSystem

/-- What a step of a call can do, by the phase it is in. -/
inductive Advance (takion : TakionLocal) (id : Nat) (o : SendOutcome) :
    SendPhase → TakionLocal → SendPhase → Prop where
  | reserve {keys keyPos : Nat} {packet : Bytes} (control : ControlPacket packet) :
      Advance takion id o .start { takion with keyPosLocal := keys } (.reserved packet keyPos)
  | refuse {keys : Nat} {err : ErrorCode} (bad : err ≠ .success) :
      Advance takion id o .start { takion with keyPosLocal := keys } (.returned err none)
  | number {packet more : Bytes} {keyPos : Nat} :
      Advance takion id o (.reserved packet keyPos)
        { takion with seqNumLocal := (takion.seqNumLocal + 1) % 2 ^ 32 }
        (.numbered (packet ++ more) keyPos takion.seqNumLocal)
  | unnumbered {packet : Bytes} {keyPos : Nat} :
      Advance takion id o (.reserved packet keyPos) takion (.returned .unknown none)
  | authenticate {packet packet' : Bytes} {keyPos seqNum : Nat} {crypt : Option GKCrypt}
      (locked : o.lock = true) :
      Advance takion id o (.numbered packet keyPos seqNum) { takion with gkcryptLocal := crypt }
        (.authenticated packet' seqNum)
  | unauthenticated {packet : Bytes} {keyPos seqNum : Nat} {crypt : Option GKCrypt} {err : ErrorCode}
      (bad : err ≠ .success) (failed : ControlPacket packet → o.lock = false) :
      Advance takion id o (.numbered packet keyPos seqNum) { takion with gkcryptLocal := crypt }
        (.returned err (some seqNum))
  | send {packet : Bytes} {seqNum : Nat} (taken : o.ok = true) :
      Advance takion id o (.authenticated packet seqNum) takion (.sent packet seqNum)
  | unsent {packet : Bytes} {seqNum : Nat} (failed : o.ok = false) :
      Advance takion id o (.authenticated packet seqNum) takion (.returned .network (some seqNum))
  | push {packet : Bytes} {seqNum : Nat} {buffer' : SendBuffer} (locked : o.lock = true)
      (takes : takion.sendBuffer.Takes seqNum)
      (live : buffer'.live = takion.sendBuffer.live ++ [⟨seqNum, 0, o.now, ⟨id, packet⟩⟩])
      (size : buffer'.packets.length = takion.sendBuffer.packets.length)
      (count : buffer'.packetsCount ≤ buffer'.packets.length) :
      Advance takion id o (.sent packet seqNum) { takion with sendBuffer := buffer' }
        (.returned .success (some seqNum))
  | unpushed {packet : Bytes} {seqNum : Nat}
      (failed : ¬ (o.lock = true ∧ takion.sendBuffer.Takes seqNum)) :
      Advance takion id o (.sent packet seqNum) takion (.returned .success (some seqNum))
  | stay {err : ErrorCode} {seqNum : Option Nat} :
      Advance takion id o (.returned err seqNum) takion (.returned err seqNum)

theorem advanceKeyPos_cases (takion : TakionLocal) (lock : Bool) (size : Nat) :
    ∃ keys r, takion.advanceKeyPos lock size = ({ takion with keyPosLocal := keys }, r) ∧
      r ≠ .error .success := by
  unfold TakionLocal.advanceKeyPos
  dsimp only
  split
  · exact ⟨takion.keyPosLocal, _, rfl, by simp⟩
  split
  · split
    · exact ⟨takion.keyPosLocal, _, rfl, by simp⟩
    · exact ⟨_, _, rfl, by simp⟩
  · exact ⟨takion.keyPosLocal, _, rfl, by simp⟩

theorem packetMac_error {lib : CryptoLib} {gmacOk : Bool} {crypt : Option GKCrypt} {packet : Bytes}
    {keyPos : Nat} {r : PacketMac} (computed : packetMac lib gmacOk crypt packet keyPos = .ok r) :
    r.result ≠ .error .success := by
  unfold packetMac at computed
  split at computed
  · obtain rfl := Except.ok.inj computed
    simp
  split at computed
  · obtain rfl := Except.ok.inj computed
    simp
  split at computed
  · obtain rfl := Except.ok.inj computed
    simp
  split at computed
  · obtain rfl := Except.ok.inj computed
    simp
  obtain ⟨macOld, -, computed⟩ := bind_eq_ok computed
  obtain ⟨written, -, computed⟩ := bind_eq_ok computed
  obtain ⟨mac, -, computed⟩ := bind_eq_ok computed
  obtain rfl := Except.ok.inj computed
  simp

theorem authenticate_cases {lib : CryptoLib} {takion : TakionLocal} {lock gmacOk : Bool} {packet : Bytes}
    {keyPos : Nat} : ∃ crypt r,
      takion.authenticate lib lock gmacOk packet keyPos = .ok ({ takion with gkcryptLocal := crypt }, r) ∧
      r ≠ .error .success ∧
      (ControlPacket packet → lock = true → ∃ packet', r = .ok packet') ∧
      ∀ packet', r = .ok packet' → lock = true := by
  unfold TakionLocal.authenticate
  cases lock with
  | false => exact ⟨takion.gkcryptLocal, _, rfl, by simp, by simp, by simp⟩
  | true =>
      obtain ⟨r, computed, -⟩ := packetMac_ok lib gmacOk takion.gkcryptLocal packet keyPos
      simp only [Bool.not_true, Bool.false_eq_true, if_false, computed, ok_bind]
      refine ⟨r.crypt, r.result.map fun _ => r.buf, rfl, ?_, ?_, by simp⟩
      · intro success
        cases result : r.result with
        | ok macs => simp [result, Except.map] at success
        | error err =>
            simp only [result, Except.map, Except.error.injEq] at success
            exact packetMac_error computed (by rw [result, success])
      · intro control _
        obtain ⟨macs, result⟩ := control.mac computed
        exact ⟨r.buf, by rw [result]; rfl⟩

theorem advance_cases (lib : CryptoLib) (takion : TakionLocal) (id : Nat) (call : SendCall)
    (o : SendOutcome) : ∃ takion' phase', advance lib takion id call o = .ok (takion', phase') ∧
      Advance takion id o call.phase takion' phase' := by
  unfold advance
  cases call.phase with
  | start =>
      obtain ⟨keys, r, advanced, bad⟩ := advanceKeyPos_cases takion o.lock call.args.buf.length
      rw [advanced]
      cases r with
      | error err => exact ⟨_, _, rfl, .refuse (by simpa using bad)⟩
      | ok keyPos =>
          dsimp only
          split
          · exact ⟨_, _, rfl, .reserve (call.args.head_control _ _)⟩
          · exact ⟨_, _, rfl, .refuse (by decide)⟩
  | reserved packet keyPos =>
      dsimp only
      split
      · exact ⟨_, _, rfl, .number⟩
      · exact ⟨_, _, rfl, .unnumbered⟩
  | numbered packet keyPos seqNum =>
      obtain ⟨crypt, r, authenticated, bad, good, locks⟩ :=
        @authenticate_cases lib takion o.lock o.gmac packet keyPos
      simp only [authenticated, ok_bind]
      cases r with
      | error err =>
          refine ⟨_, _, rfl, .unauthenticated (by simpa using bad) fun control => ?_⟩
          by_contra locked
          obtain ⟨packet', same⟩ := good control (by simpa using locked)
          cases same
      | ok packet' => exact ⟨_, _, rfl, .authenticate (locks packet' rfl)⟩
  | authenticated packet seqNum =>
      dsimp only
      cases taken : o.ok with
      | true => exact ⟨_, _, rfl, .send taken⟩
      | false => exact ⟨_, _, rfl, .unsent taken⟩
  | sent packet seqNum =>
      dsimp only
      cases locked : o.lock with
      | true =>
          by_cases takes : takion.sendBuffer.Takes seqNum
          · obtain ⟨buffer', pushed, live, size, count⟩ :=
              @SendBuffer.push_success takion.sendBuffer seqNum o.now ⟨id, packet⟩ takes
            rw [if_pos rfl, pushed]
            exact ⟨_, _, rfl, .push locked takes live size count⟩
          · obtain ⟨err, refused, -⟩ :=
              @SendBuffer.push_refused takion.sendBuffer seqNum o.now ⟨id, packet⟩ takes
            rw [if_pos rfl, refused]
            exact ⟨_, _, rfl, .unpushed fun ⟨_, there⟩ => takes there⟩
      | false => exact ⟨_, _, rfl, .unpushed (by simp [locked])⟩
  | returned err seqNum => exact ⟨_, _, rfl, .stay⟩

/-! ## The send buffer -/

/-- The blocks in the buffer with their numbers. -/
def buffered (s : SendSystem) : List (Nat × Nat) :=
  s.takion.sendBuffer.live.map fun packet => (packet.buf.id, packet.seqNum)

structure Shaped (s : SendSystem) : Prop where
  size : s.takion.sendBuffer.packets.length = takionSendBufferSize
  count : s.takion.sendBuffer.packetsCount ≤ s.takion.sendBuffer.packets.length
  index : ∀ now i, s.resend = .givingUp now i → i < s.takion.sendBuffer.packets.length

/-- The packets an acknowledgement removes, none when it does not get the mutex. -/
def acked (s : SendSystem) (lock : Bool) (seqNum : Nat) : List SendBufferPacket :=
  if lock then s.takion.sendBuffer.live.filter (SendBuffer.covers seqNum) else []

def kept (s : SendSystem) (lock : Bool) (seqNum : Nat) : List SendBufferPacket :=
  if lock then s.takion.sendBuffer.live.filter (!SendBuffer.covers seqNum ·)
  else s.takion.sendBuffer.live

theorem kept_sublist (s : SendSystem) (lock : Bool) (seqNum : Nat) :
    (s.kept lock seqNum).Sublist s.takion.sendBuffer.live := by
  unfold kept
  split
  · exact List.filter_sublist
  · exact List.Sublist.refl _

theorem acked_sublist (s : SendSystem) (lock : Bool) (seqNum : Nat) :
    (s.acked lock seqNum).Sublist s.takion.sendBuffer.live := by
  unfold acked
  split
  · exact List.filter_sublist
  · exact List.nil_sublist _

def withBuffer (s : SendSystem) (buffer : SendBuffer) : SendSystem :=
  { s with takion := { s.takion with sendBuffer := buffer } }

/-- Nothing happens but that packets of the buffer may be sent again. -/
structure Quiet (s s' : SendSystem) : Prop where
  calls : s'.calls = s.calls
  buffered : s'.buffered = s.buffered
  seqNumLocal : s'.takion.seqNumLocal = s.takion.seqNumLocal
  events : s'.events = s.events
  acknowledged : s'.acknowledged = s.acknowledged
  givenUp : s'.givenUp = s.givenUp
  resent : ∀ j, j ∉ s.buffered.map Prod.fst → s'.resent.count j = s.resent.count j

theorem Quiet.rfl {s : SendSystem} : Quiet s s where
  calls := Eq.refl _
  buffered := Eq.refl _
  seqNumLocal := Eq.refl _
  events := Eq.refl _
  acknowledged := Eq.refl _
  givenUp := Eq.refl _
  resent _ _ := Eq.refl _

section Shaped
variable {s : SendSystem} (h : Shaped s)
include h

theorem Shaped.live_length : s.takion.sendBuffer.live.length ≤ takionSendBufferSize := by
  rw [← h.size]
  exact (List.length_take_le _ _).trans h.count

theorem Shaped.ackBuffer {lock : Bool} {seqNum capacity : Nat}
    (fits : (s.acked lock seqNum).length ≤ capacity) :
    ∃ buffer', s.ackBuffer lock seqNum capacity = .ok (s.withBuffer buffer', s.acked lock seqNum) ∧
      buffer'.live = s.kept lock seqNum ∧ Shaped (s.withBuffer buffer') := by
  cases lock with
  | false => exact ⟨s.takion.sendBuffer, rfl, rfl, h⟩
  | true =>
      obtain ⟨buffer', done, live, length, count⟩ := SendBuffer.ack_eq seqNum capacity h.count fits
      refine ⟨buffer', ?_, live, length.trans h.size, count, ?_⟩
      · rw [SendSystem.ackBuffer, if_pos rfl, done, ok_bind]
        rfl
      · intro now i found
        change i < buffer'.packets.length
        rw [length]
        exact h.index now i found

theorem Shaped.ackBuffer_overrun {lock : Bool} {seqNum capacity : Nat}
    (full : capacity < (s.acked lock seqNum).length) :
    s.ackBuffer lock seqNum capacity = .error .outOfBounds := by
  cases lock with
  | false => simp [acked] at full
  | true =>
      rw [SendSystem.ackBuffer, if_pos rfl, SendBuffer.ack_overrun seqNum capacity h.count full]
      rfl

theorem Shaped.handleDataAck {payload : Bytes} {cumulative : Nat} (lock : Bool)
    (parsed : parseDataAck payload = .ok (some cumulative)) :
    ∃ buffer', s.handleDataAck payload lock = .ok { s with
        takion := { s.takion with sendBuffer := buffer' }
        events := s.events ++ (s.acked lock cumulative).map fun packet => (packet.seqNum, packet.buf.id)
        acknowledged := s.acknowledged ++ (s.covered cumulative).filter (· ∉ s.acknowledged) } ∧
      buffer'.live = s.kept lock cumulative ∧ Shaped (s.withBuffer buffer') := by
  obtain ⟨buffer', done, live, shaped⟩ :=
    h.ackBuffer ((s.acked_sublist lock cumulative).length_le.trans h.live_length)
  refine ⟨buffer', ?_, live, shaped⟩
  rw [SendSystem.handleDataAck, parsed, ok_bind]
  simp only [done, ok_bind]
  rfl

theorem Shaped.scan (now i : Nat) : ∃ s', s.scan now i = .ok s' ∧ Shaped s' ∧ Quiet s s' := by
  have count := h.count
  by_cases inside : i ≤ s.takion.sendBuffer.packetsCount
  · have last : i + (s.takion.sendBuffer.packetsCount - i) = s.takion.sendBuffer.packetsCount := by omega
    obtain ⟨buffer', sent, giveUp, resent, same, identity, blocks, bound⟩ :=
      @SendBuffer.scanFrom_eq takionDataResendTimeoutMs takionDataResendTriesMax now
        (s.takion.sendBuffer.packetsCount - i) i s.takion.sendBuffer [] (by omega)
    rw [last] at blocks bound
    have length : buffer'.packets.length = s.takion.sendBuffer.packets.length := by
      simpa using congrArg List.length identity
    have ids (packets : List SendBufferPacket) : packets.map (fun packet => (packet.buf.id, packet.seqNum)) =
        (packets.map SendBuffer.identity).map fun e => (e.2.id, e.1) := by
      rw [List.map_map]
      rfl
    refine ⟨{ s.withBuffer buffer' with
      resent := s.resent ++ sent.map (·.id)
      resend := .afterLoop now giveUp }, ?_, ⟨length.trans h.size, ?_, ?_⟩,
      ⟨rfl, ?_, rfl, rfl, rfl, rfl, ?_⟩⟩
    · rw [SendSystem.scan, SendBuffer.resendFrom_eq_scanFrom, resent, ok_bind, List.nil_append]
      rfl
    · change buffer'.packetsCount ≤ buffer'.packets.length
      omega
    · intro now' i' found
      cases giveUp with
      | none => cases found
      | some k =>
          obtain ⟨rfl, rfl⟩ := ResendPhase.givingUp.inj found
          have bound := bound k rfl
          change k < buffer'.packets.length
          omega
    · change (buffer'.packets.take buffer'.packetsCount).map (fun packet => (packet.buf.id, packet.seqNum)) =
        (s.takion.sendBuffer.packets.take s.takion.sendBuffer.packetsCount).map
          fun packet => (packet.buf.id, packet.seqNum)
      simp only [ids, List.map_take, identity, same]
    · intro j absent
      have none_sent : j ∉ sent.map (·.id) := by
        intro member
        obtain ⟨block, there, rfl⟩ := List.mem_map.mp member
        obtain ⟨packet, found, rfl⟩ := blocks block there
        apply absent
        rw [buffered, List.map_map]
        exact List.mem_map.mpr ⟨packet, found, rfl⟩
      simp [List.count_append, List.count_eq_zero_of_not_mem none_sent]
  · have ended : s.takion.sendBuffer.packetsCount - i = 0 := by omega
    refine ⟨{ s with resent := s.resent ++ [], resend := .idle }, ?_, ⟨h.size, h.count, by simp⟩,
      ⟨rfl, rfl, rfl, rfl, rfl, rfl, by simp⟩⟩
    rw [SendSystem.scan, ended]
    rfl

end Shaped

/-! ## The effect of a step -/

/-- Only giving up can write behind its array. -/
def Fits (s : SendSystem) : Op → Prop
  | .ackGivenUp lock => ∀ now i seqNum, s.resend = .acking now i seqNum → (s.acked lock seqNum).length ≤ 1
  | _ => True

inductive Effect (s : SendSystem) : Op → SendSystem → Prop where
  | quiet {op : Op} {s' : SendSystem} (quiet : Quiet s s') : Effect s op s'
  | call {args : SendMessageArgs} :
      Effect s (.call args) { s with calls := s.calls ++ [⟨args, .start⟩] }
  | advance {i : Nat} {o : SendOutcome} {call : SendCall} {takion' : TakionLocal} {phase' : SendPhase}
      (here : s.calls[i]? = some call) (advanced : Advance s.takion i o call.phase takion' phase') :
      Effect s (.advance i o)
        { s with takion := takion', calls := s.calls.set i { call with phase := phase' } }
  | dataAck {payload : Bytes} {lock : Bool} {cumulative : Nat} {buffer' : SendBuffer}
      (parsed : parseDataAck payload = .ok (some cumulative)) (live : buffer'.live = s.kept lock cumulative) :
      Effect s (.dataAck payload lock) { s with
        takion := { s.takion with sendBuffer := buffer' }
        events := s.events ++ (s.acked lock cumulative).map fun packet => (packet.seqNum, packet.buf.id)
        acknowledged := s.acknowledged ++ (s.covered cumulative).filter (· ∉ s.acknowledged) }
  | giveUp {lock : Bool} {now i seqNum : Nat} {buffer' : SendBuffer}
      (acking : s.resend = .acking now i seqNum) (live : buffer'.live = s.kept lock seqNum) :
      Effect s (.ackGivenUp lock) { s with
        takion := { s.takion with sendBuffer := buffer' }
        resend := .relocking now i
        givenUp := s.givenUp ++
          ((s.acked lock seqNum).filter (·.tries ≥ takionDataResendTriesMax)).map (·.buf.id) }

section Step
variable (lib : CryptoLib) {s : SendSystem} (h : Shaped s)
include h

theorem Shaped.step_ok (op : Op) (fits : s.Fits op) :
    ∃ s', step lib s op = .ok (s', ()) ∧ Shaped s' ∧ Effect s op s' := by
  cases op with
  | call args => exact ⟨_, rfl, ⟨h.size, h.count, h.index⟩, .call⟩
  | advance i o =>
      simp only [step]
      cases here : s.calls[i]? with
      | none => exact ⟨s, rfl, h, .quiet .rfl⟩
      | some call =>
          obtain ⟨takion', phase', advances, advanced⟩ := advance_cases lib s.takion i call o
          simp only [advances, ok_bind]
          refine ⟨_, rfl, ?_, .advance here advanced⟩
          generalize call.phase = phase at advanced
          cases advanced with
          | push _ _ live size count => exact ⟨size.trans h.size, count, by rw [size]; exact h.index⟩
          | _ => exact ⟨h.size, h.count, h.index⟩
  | dataAck payload lock =>
      obtain ⟨parsed, parses⟩ := parseDataAck_ok payload
      cases parsed with
      | none =>
          refine ⟨s, ?_, h, .quiet .rfl⟩
          simp only [step, SendSystem.handleDataAck, parses, ok_bind]
          rfl
      | some cumulative =>
          obtain ⟨buffer', done, live, shaped⟩ := h.handleDataAck lock parses
          simp only [step, done, ok_bind]
          exact ⟨_, rfl, ⟨shaped.size, shaped.count, shaped.index⟩, .dataAck parses live⟩
  | resend now =>
      simp only [step]
      split
      · obtain ⟨s', scanned, shaped, quiet⟩ := h.scan now 0
        rw [scanned]
        exact ⟨s', rfl, shaped, .quiet quiet⟩
      · exact ⟨s, rfl, h, .quiet .rfl⟩
  | readGivenUp =>
      simp only [step]
      split
      · rename_i now i giving
        rw [List.getElem?_eq_getElem (h.index now i giving), inBounds_some]
        exact ⟨_, rfl, ⟨h.size, h.count, by simp⟩, .quiet ⟨rfl, rfl, rfl, rfl, rfl, rfl, fun _ _ => rfl⟩⟩
      · exact ⟨s, rfl, h, .quiet .rfl⟩
  | ackGivenUp lock =>
      simp only [step]
      split
      · rename_i now i seqNum acking
        obtain ⟨buffer', done, live, shaped⟩ := h.ackBuffer (fits now i seqNum acking)
        rw [done]
        exact ⟨_, rfl, ⟨shaped.size, shaped.count, by simp⟩, .giveUp acking live⟩
      · exact ⟨s, rfl, h, .quiet .rfl⟩
  | resume =>
      simp only [step]
      split
      · rename_i now i _
        obtain ⟨s', scanned, shaped, quiet⟩ := h.scan now i
        rw [scanned]
        exact ⟨s', rfl, shaped, .quiet quiet⟩
      · exact ⟨s, rfl, h, .quiet .rfl⟩
  | crypt gkcryptLocal keyPosLocal =>
      exact ⟨_, rfl, ⟨h.size, h.count, h.index⟩, .quiet ⟨rfl, rfl, rfl, rfl, rfl, rfl, fun _ _ => rfl⟩⟩

theorem Shaped.step_overrun (op : Op) (full : ¬ s.Fits op) : step lib s op = .error .outOfBounds := by
  cases op with
  | ackGivenUp lock =>
      simp only [Fits, not_forall] at full
      obtain ⟨now, i, seqNum, acking, full⟩ := full
      simp only [step, acking, h.ackBuffer_overrun (Nat.lt_of_not_le full)]
      rfl
  | _ => exact absurd trivial full

theorem Shaped.step_inv {op : Op} {s' : SendSystem} {o : Unit} (stepped : step lib s op = .ok (s', o)) :
    Shaped s' ∧ Effect s op s' := by
  by_cases fits : s.Fits op
  · obtain ⟨s'', done, result⟩ := h.step_ok lib op fits
    obtain ⟨rfl, -⟩ := Prod.mk.inj (Except.ok.inj (stepped.symm.trans done))
    exact result
  · rw [h.step_overrun lib op fits] at stepped
    cases stepped

end Step
end SendSystem
end Chiaki
