import Chiaki.Takion.MacAgreement

/-!
# Datagrams that do not verify

Nothing but the cached key of the GKCrypt sees them.
-/

namespace Chiaki
open Machine GKCrypt

theorem packetReadKeyPos_ok (state : KeyState) (buf : Bytes) : ∃ r, packetReadKeyPos state buf = .ok r := by
  cases buf with
  | nil => exact ⟨_, rfl⟩
  | cons first rest =>
      unfold packetReadKeyPos
      dsimp only
      split
      · exact ⟨_, rfl⟩
      · split
        · exact ⟨_, rfl⟩
        · rw [read32_eq (by omega)]
          exact ⟨_, rfl⟩

namespace Takion

/-- `takion_handle_packet_mac` returns success. -/
def Verified (lib : CryptoLib) (takion : Takion) (gmacOk : Bool) (buf : Bytes) : Prop :=
  ∃ takion' buf', takion.handlePacketMac lib gmacOk buf = .ok (takion', buf', .ok ())

def setRemote (takion : Takion) (crypt : Option GKCrypt) : Takion := { takion with gkcryptRemote := crypt }

@[simp] theorem setRemote_gkcryptRemote (takion : Takion) (crypt : Option GKCrypt) :
    (takion.setRemote crypt).gkcryptRemote = crypt := rfl

/-- Two states that differ in what the GKCrypt has cached. -/
def SameButCache (lib : CryptoLib) (s t : Takion) : Prop :=
  ∃ crypt crypt', s.gkcryptRemote = some crypt ∧ t = s.setRemote (some crypt') ∧ SameKeys crypt crypt' ∧
    crypt.Coherent lib ∧ crypt'.Coherent lib

theorem packetMac_keeps {lib : CryptoLib} {crypt : GKCrypt} {gmacOk : Bool} {buf : Bytes} {keyPos : Nat}
    {r : PacketMac} (computed : packetMac lib gmacOk (some crypt) buf keyPos = .ok r) :
    ∃ crypt', r.crypt = some crypt' ∧
      (crypt.Coherent lib → SameKeys crypt crypt' ∧ crypt'.Coherent lib) := by
  obtain ⟨crypt', kept⟩ := Option.isSome_iff_exists.mp (packetMac_isSome computed)
  refine ⟨crypt', kept, fun coherent => ?_⟩
  obtain ⟨buf', result, any⟩ := packetMac_coherent lib crypt gmacOk buf keyPos
  obtain ⟨after, computed', same, coherent'⟩ := any crypt (.refl crypt) coherent
  rw [computed'] at computed
  obtain rfl := Except.ok.inj computed
  obtain rfl := Option.some.inj kept
  exact ⟨same, coherent'⟩

/-- With keys every datagram gets a verdict, and only a good one is seen outside of the GKCrypt. -/
theorem handlePacketMac_keys (lib : CryptoLib) {takion : Takion} {crypt : GKCrypt} (gmacOk : Bool) (buf : Bytes)
    (keys : takion.gkcryptRemote = some crypt) :
    ∃ (crypt' : GKCrypt) (buf' : Bytes) (result : Except ErrorCode Nat),
      takion.handlePacketMac lib gmacOk buf = .ok
        (match result with
          | .ok keyPos => { takion.setRemote (some crypt') with keyState := takion.keyState.commit keyPos }
          | .error _ => takion.setRemote (some crypt'), buf', result.map fun _ => ()) ∧
      (crypt.Coherent lib → SameKeys crypt crypt' ∧ crypt'.Coherent lib) := by
  obtain ⟨position, read⟩ := packetReadKeyPos_ok takion.keyState buf
  simp only [handlePacketMac, keys, read, ok_bind]
  cases position with
  | error err =>
      refine ⟨crypt, buf, .error err, ?_, fun coherent => ⟨.refl crypt, coherent⟩⟩
      simp [setRemote, ← keys]
      rfl
  | ok keyPos =>
      obtain ⟨r, computed, -⟩ := packetMac_ok lib gmacOk (some crypt) buf keyPos
      obtain ⟨crypt', kept, related⟩ := packetMac_keeps computed
      simp only [computed, ok_bind, kept]
      cases r.result with
      | error err => exact ⟨crypt', r.buf, .error err, rfl, related⟩
      | ok macs =>
          dsimp only
          split
          · exact ⟨crypt', r.buf, .error .invalidMac, rfl, related⟩
          · exact ⟨crypt', r.buf, .ok keyPos, rfl, related⟩

theorem handlePacket_unverified (lib : CryptoLib) {takion : Takion} {crypt : GKCrypt} (o : ReceiveOutcome)
    {buf : HeapBlock} (keys : takion.gkcryptRemote = some crypt) (received : buf.data ≠ [])
    (unverified : ¬ takion.Verified lib o.gmac buf.data) :
    ∃ crypt', takion.handlePacket lib o buf = .ok (takion.setRemote (some crypt'), { freed := [buf.id] }) ∧
      (crypt.Coherent lib → SameKeys crypt crypt' ∧ crypt'.Coherent lib) := by
  obtain ⟨crypt', buf', result, checked, related⟩ := handlePacketMac_keys lib o.gmac buf.data keys
  have some : 0 < buf.data.length := List.length_pos_iff.mpr received
  cases result with
  | ok keyPos => exact absurd ⟨_, _, checked⟩ unverified
  | error err =>
      refine ⟨crypt', ?_, related⟩
      simp only [handlePacket, decide_eq_true some, assert_true, ok_bind, byteAt_eq some, checked]
      rfl

/-! ## Everything else is independent of the cache -/

theorem handlePacketMac_alike {lib : CryptoLib} {s t : Takion} (same : SameButCache lib s t) (gmacOk : Bool)
    (buf : Bytes) : Alike (SameButCache lib) (s.handlePacketMac lib gmacOk buf) (t.handlePacketMac lib gmacOk buf) := by
  obtain ⟨crypt, crypt', keys, rfl, sameKeys, coherent, coherent'⟩ := same
  obtain ⟨position, read⟩ := packetReadKeyPos_ok s.keyState buf
  have read' : packetReadKeyPos (s.setRemote (some crypt')).keyState buf = .ok position := read
  simp only [handlePacketMac, keys, setRemote_gkcryptRemote, read, read', ok_bind]
  cases position with
  | error err => exact .ok _ ⟨crypt, crypt', keys, rfl, sameKeys, coherent, coherent'⟩
  | ok keyPos =>
      obtain ⟨buf', result, any⟩ := packetMac_coherent lib crypt gmacOk buf keyPos
      obtain ⟨after, computed, same₁, coherent₁⟩ := any crypt (.refl crypt) coherent
      obtain ⟨after', computed', same₂, coherent₂⟩ := any crypt' sameKeys coherent'
      simp only [computed, computed', ok_bind]
      have cached := same₁.symm.trans same₂
      cases result with
      | error err => exact .ok _ ⟨after, after', rfl, rfl, cached, coherent₁, coherent₂⟩
      | ok macs =>
          dsimp only
          split
          · exact .ok _ ⟨after, after', rfl, rfl, cached, coherent₁, coherent₂⟩
          · exact .ok _ ⟨after, after', rfl, rfl, cached, coherent₁, coherent₂⟩

theorem flushDataQueue_alike {lib : CryptoLib} {s t : Takion} (same : SameButCache lib s t) :
    Alike (SameButCache lib) s.flushDataQueue t.flushDataQueue := by
  obtain ⟨crypt, crypt', keys, rfl, related⟩ := same
  unfold flushDataQueue setRemote
  dsimp only
  cases pullAll s.dataQueue.count s.dataQueue with
  | error e => exact .error e
  | ok r => exact .ok _ ⟨crypt, crypt', keys, rfl, related⟩

theorem handlePacketMessageData_alike {lib : CryptoLib} {s t : Takion} (same : SameButCache lib s t) (alloc : Bool)
    (packet : HeapBlock) (typeB : UInt8) (payload : Bytes) :
    Alike (SameButCache lib) (s.handlePacketMessageData alloc packet typeB payload)
      (t.handlePacketMessageData alloc packet typeB payload) := by
  unfold handlePacketMessageData
  split
  · exact .ok _ same
  · split
    · exact .ok _ same
    · obtain ⟨crypt, crypt', keys, rfl, related⟩ := same
      cases read16 payload 4 with
      | error e => exact .error e
      | ok channel =>
          cases read32 payload 0 with
          | error e => exact .error e
          | ok seqNum =>
              simp only [ok_bind, setRemote]
              cases s.dataQueue.push seqNum ⟨typeB, packet, payload, channel⟩ with
              | error e => exact .error e
              | ok pushed =>
                  have flushed := @flushDataQueue_alike lib { s with dataQueue := pushed.1 }
                    { s.setRemote (some crypt') with dataQueue := pushed.1 } ⟨crypt, crypt', keys, rfl, related⟩
                  exact flushed.bind fun _ _ _ later => .ok _ later

theorem handlePacketMessageDataAck_alike {lib : CryptoLib} {s t : Takion} (same : SameButCache lib s t) (lock : Bool)
    (payload : Bytes) :
    Alike (SameButCache lib) (s.handlePacketMessageDataAck lock payload) (t.handlePacketMessageDataAck lock payload) := by
  unfold handlePacketMessageDataAck
  cases parseDataAck payload with
  | error e => exact .error e
  | ok cumulative =>
      cases cumulative with
      | none => exact .ok _ same
      | some cumulative =>
          simp only [ok_bind]
          split
          · exact .ok _ same
          · obtain ⟨crypt, crypt', keys, rfl, related⟩ := same
            simp only [setRemote]
            cases s.sending.sendBuffer.ack cumulative takionSendBufferSize with
            | error e => exact .error e
            | ok r =>
                simp only [ok_bind]
                cases dataAckEvents s.cb r.2 with
                | error e => exact .error e
                | ok events => exact .ok _ ⟨crypt, crypt', keys, rfl, related⟩

theorem handlePacketMessage_alike {lib : CryptoLib} {s t : Takion} (same : SameButCache lib s t) (o : ReceiveOutcome)
    (buf : HeapBlock) : Alike (SameButCache lib) (s.handlePacketMessage o buf) (t.handlePacketMessage o buf) := by
  obtain ⟨crypt, crypt', keys, rfl, related⟩ := same
  unfold handlePacketMessage
  simp only [setRemote]
  cases parseMessage s.keyState s.tagLocal (buf.data.drop 1) with
  | error e => exact .error e
  | ok r =>
      have parsed : SameButCache lib { s with keyState := r.1 } { s.setRemote (some crypt') with keyState := r.1 } :=
        ⟨crypt, crypt', keys, rfl, related⟩
      simp only [ok_bind]
      cases r.2 with
      | error err => exact .ok _ parsed
      | ok msg =>
          dsimp only
          split
          · exact handlePacketMessageData_alike parsed o.alloc buf msg.chunkFlags msg.payload
          · split
            · exact (handlePacketMessageDataAck_alike parsed o.lock msg.payload).bind fun _ _ _ later => .ok _ later
            · exact .ok _ parsed

theorem handlePacketAv_alike {lib : CryptoLib} {s t : Takion} (same : SameButCache lib s t) (buf : Bytes) :
    Alike (SameButCache lib) (s.handlePacketAv buf) (t.handlePacketAv buf) := by
  obtain ⟨crypt, crypt', keys, rfl, related⟩ := same
  unfold handlePacketAv
  simp only [setRemote]
  cases s.avPacketParse s.keyState buf with
  | error e => exact .error e
  | ok r =>
      simp only [ok_bind]
      cases r.2 with
      | error err => exact .ok _ ⟨crypt, crypt', keys, rfl, related⟩
      | ok packet => exact .ok _ ⟨crypt, crypt', keys, rfl, related⟩

theorem handlePacket_alike {lib : CryptoLib} {s t : Takion} (same : SameButCache lib s t) (o : ReceiveOutcome)
    (buf : HeapBlock) : Alike (SameButCache lib) (s.handlePacket lib o buf) (t.handlePacket lib o buf) := by
  unfold handlePacket
  cases assert (buf.data.length > 0) with
  | error e => exact .error e
  | ok _ =>
      cases byteAt buf.data 0 with
      | error e => exact .error e
      | ok first =>
          refine (handlePacketMac_alike same o.gmac buf.data).bind ?_
          rintro s' t' ⟨buf', result⟩ same'
          have keys : s'.gkcryptRemote.isNone = false ∧ t'.gkcryptRemote.isNone = false := by
            obtain ⟨crypt, crypt', keys, rfl, -⟩ := same'
            simp [keys]
          simp only [keys, Bool.and_false, Bool.false_eq_true, if_false]
          cases result with
          | error err => exact .ok _ same'
          | ok _ =>
              dsimp only
              split
              · exact handlePacketMessage_alike same' o _
              · exact (handlePacketAv_alike same' buf').bind fun _ _ _ later => .ok _ later
              · exact (handlePacketAv_alike same' buf').bind fun _ _ _ later => .ok _ later
              · exact .ok _ same'

/-! ## Runs -/

/-- What moves a connection: a datagram, or another thread at the sending half. -/
inductive Op where
  | datagram (buf : HeapBlock) (o : ReceiveOutcome)
  | sending (f : TakionLocal → TakionLocal)

def step (lib : CryptoLib) (takion : Takion) : Op → Checked (Takion × Handled)
  | .datagram buf o => takion.handlePacket lib o buf
  | .sending f => pure ({ takion with sending := f takion.sending }, {})

/-- A datagram that does not verify when it arrives. -/
def Unverified (lib : CryptoLib) (takion : Takion) (op : Op) : Prop :=
  ∃ buf o, op = .datagram buf o ∧ buf.data ≠ [] ∧ ¬ takion.Verified lib o.gmac buf.data

theorem step_alike {lib : CryptoLib} {s t : Takion} (op : Op) (same : SameButCache lib s t) :
    Alike (SameButCache lib) (step lib s op) (step lib t op) := by
  cases op with
  | datagram buf o => exact handlePacket_alike same o buf
  | sending f =>
      obtain ⟨crypt, crypt', keys, rfl, related⟩ := same
      exact .ok _ ⟨crypt, crypt', keys, rfl, related⟩

theorem step_unverified {lib : CryptoLib} {s t : Takion} {op : Op} (same : SameButCache lib s t)
    (unverified : Unverified lib s op) : ∃ s' out, step lib s op = .ok (s', out) ∧ SameButCache lib s' t := by
  obtain ⟨buf, o, rfl, received, unverified⟩ := unverified
  obtain ⟨crypt, crypt', keys, rfl, sameKeys, coherent, coherent'⟩ := same
  obtain ⟨after, handled, related⟩ := handlePacket_unverified lib o keys received unverified
  obtain ⟨sameKeys', after_coherent⟩ := related coherent
  exact ⟨_, _, handled, after, crypt', rfl, rfl, sameKeys'.symm.trans sameKeys, after_coherent, coherent'⟩

/-- Whatever does not verify is freed and has no effect, and a run without it hands out the same. -/
theorem unverified_noEffect (lib : CryptoLib) {takion : Takion} {crypt : GKCrypt}
    (keys : takion.gkcryptRemote = some crypt) :
    (∀ buf o, buf.data ≠ [] → ¬ takion.Verified lib o.gmac buf.data → ∃ crypt',
      takion.handlePacket lib o buf = .ok ({ takion with gkcryptRemote := some crypt' }, { freed := [buf.id] })) ∧
    ∀ keyBase iv, crypt.Used lib keyBase iv → ∀ ops : List (Bool × Op),
      Along (stepMarked (step lib)) (fun takion op => op.1 → Unverified lib takion op.2) takion ops →
      Alike (SameButCache lib)
        ((run (stepMarked (step lib)) takion ops).map fun r => (r.1, unmarkedOutputs ops r.2))
        (run (step lib) takion (unmarked ops)) := by
  refine ⟨fun buf o received unverified => ?_, fun keyBase iv used ops inserted => ?_⟩
  · obtain ⟨crypt', handled, -⟩ := handlePacket_unverified lib o keys received unverified
    exact ⟨crypt', handled⟩
  · have coherent := used.coherent.2
    have same : SameButCache lib takion takion :=
      ⟨crypt, crypt, keys, by rw [setRemote, ← keys], .refl crypt, coherent, coherent⟩
    exact run_unmarked (fun _ _ op => step_alike op) (fun _ _ _ => step_unverified) same inserted

/-- One byte of an unknown type in between. -/
theorem unverified_noEffect_byte :
    Alike (SameButCache default)
      ((run (stepMarked (step default)) zeroReceiver [(true, .datagram ⟨0, [0xf]⟩ ⟨true, true, true⟩)]).map
        fun r => (r.1, unmarkedOutputs [(true, Op.datagram ⟨0, [0xf]⟩ ⟨true, true, true⟩)] r.2))
      (run (step default) zeroReceiver []) := by
  have checked : zeroReceiver.handlePacketMac default true [0xf] = .ok (zeroReceiver, [0xf], .error .invalidData) := rfl
  have unverified : Unverified default zeroReceiver (.datagram ⟨0, [0xf]⟩ ⟨true, true, true⟩) := by
    refine ⟨⟨0, [0xf]⟩, ⟨true, true, true⟩, rfl, by simp, ?_⟩
    rintro ⟨takion', buf', verified⟩
    rw [checked] at verified
    cases verified
  exact (unverified_noEffect default (show zeroReceiver.gkcryptRemote = some _ from rfl)).2 _ _ ⟨[], [], rfl⟩
    [(true, .datagram ⟨0, [0xf]⟩ ⟨true, true, true⟩)] ⟨fun _ => unverified, fun _ _ _ => trivial⟩

end Takion
end Chiaki
