import Chiaki.GKCrypt.Gmac
import Chiaki.GKCrypt.KeyState
import Chiaki.Takion.Packet

/-!
# The MAC of a packet

It is computed over the packet with its MAC field zeroed, and for control and congestion packets with
the field of the key position zeroed as well.
-/

namespace Chiaki

def TakionPacketType.hidesKeyPos : TakionPacketType → Bool
  | .control | .congestion => true
  | _ => false

/-- The two offsets a packet type must have to be authenticated. -/
def TakionPacketType.offsets (baseType : TakionPacketType) : Option (Nat × Nat) :=
  baseType.macOffset.bind fun mac => baseType.keyPosOffset.map fun keyPos => (mac, keyPos)

/-- `chiaki_takion_packet_read_key_pos`. -/
def packetReadKeyPos (keyState : KeyState) (buf : Bytes) : Checked (Except ErrorCode Nat) :=
  match buf with
  | [] => pure (.error .bufTooSmall)
  | first :: _ =>
      match (TakionPacketType.ofByte first).bind (·.keyPosOffset) with
      | none => pure (.error .invalidData)
      | some offset =>
          if buf.length < offset + 4 then pure (.error .bufTooSmall)
          else do
            let low ← read32 buf offset
            pure (.ok (keyState.requestPos low))

/-- The bytes `chiaki_takion_packet_mac` authenticates. -/
def maskedForMac (baseType : TakionPacketType) (macOffset keyPosOffset : Nat) (buf : Bytes) :
    Checked Bytes := do
  let buf ← setField buf macOffset (List.replicate gkcryptGmacSize 0)
  if baseType.hidesKeyPos then setField buf keyPosOffset (List.replicate 4 0) else pure buf

/-- What the call of `chiaki_gkcrypt_gmac` leaves in the packet; its error is not looked at. -/
def writeGmac (lib : CryptoLib) (gmacOk : Bool) (crypt : Option GKCrypt) (baseType : TakionPacketType)
    (macOffset keyPosOffset keyPos : Nat) (buf : Bytes) : Checked (Option GKCrypt × Bytes) := do
  let zeroed ← setField buf macOffset (List.replicate gkcryptGmacSize 0)
  match crypt with
  | none => pure (none, zeroed)
  | some crypt => do
      let masked ← maskedForMac baseType macOffset keyPosOffset buf
      let r ← crypt.gmac lib gmacOk keyPos masked
      match r.2 with
      | none => pure (some r.1, zeroed)
      | some tag => do
          let tagged ← setField zeroed macOffset tag
          pure (some r.1, tagged)

/-- What a call of `chiaki_takion_packet_mac` leaves: the GKCrypt, the packet, and either an error or the
computed MAC and the one found in the packet. -/
structure PacketMac where
  crypt : Option GKCrypt
  buf : Bytes
  result : Except ErrorCode (Bytes × Bytes)

/-- `chiaki_takion_packet_mac`. -/
def packetMac (lib : CryptoLib) (gmacOk : Bool) (crypt : Option GKCrypt) (buf : Bytes) (keyPos : Nat) :
    Checked PacketMac :=
  match buf with
  | [] => pure ⟨crypt, buf, .error .bufTooSmall⟩
  | first :: _ =>
      match TakionPacketType.ofByte first with
      | none => pure ⟨crypt, buf, .error .invalidData⟩
      | some baseType =>
          match baseType.offsets with
          | none => pure ⟨crypt, buf, .error .invalidData⟩
          | some (macOffset, keyPosOffset) =>
              if buf.length < macOffset + gkcryptGmacSize || buf.length < keyPosOffset + 4 then
                pure ⟨crypt, buf, .error .bufTooSmall⟩
              else do
                let macOld ← field buf macOffset gkcryptGmacSize
                let r ← writeGmac lib gmacOk crypt baseType macOffset keyPosOffset keyPos buf
                let mac ← field r.2 macOffset gkcryptGmacSize
                pure ⟨r.1, r.2, .ok (mac, macOld)⟩

/-! ## The checks keep every access inside -/

theorem exists_masked (baseType : TakionPacketType) {macOffset keyPosOffset : Nat} {buf : Bytes}
    (mac_inside : macOffset + gkcryptGmacSize ≤ buf.length) (inside : keyPosOffset + 4 ≤ buf.length) :
    ∃ masked, maskedForMac baseType macOffset keyPosOffset buf = .ok masked := by
  obtain ⟨zeroed, set, -, length⟩ := @setField_ok buf (List.replicate gkcryptGmacSize 0) macOffset
    (by rwa [List.length_replicate])
  rw [maskedForMac, set, ok_bind]
  split
  · obtain ⟨masked, hidden, -⟩ := @setField_ok zeroed (List.replicate 4 0) keyPosOffset
      (by rw [List.length_replicate, length]; exact inside)
    exact ⟨masked, hidden⟩
  · exact ⟨zeroed, rfl⟩

theorem writeGmac_ok (lib : CryptoLib) (gmacOk : Bool) (crypt : Option GKCrypt)
    (baseType : TakionPacketType) {macOffset keyPosOffset : Nat} (keyPos : Nat) {buf : Bytes}
    (mac_inside : macOffset + gkcryptGmacSize ≤ buf.length) (inside : keyPosOffset + 4 ≤ buf.length) :
    ∃ crypt' buf', writeGmac lib gmacOk crypt baseType macOffset keyPosOffset keyPos buf =
      .ok (crypt', buf') ∧ buf'.length = buf.length := by
  obtain ⟨zeroed, set, -, length⟩ := @setField_ok buf (List.replicate gkcryptGmacSize 0) macOffset
    (by rwa [List.length_replicate])
  rw [writeGmac, set, ok_bind]
  cases crypt with
  | none => exact ⟨none, zeroed, rfl, length⟩
  | some crypt =>
      obtain ⟨masked, masking⟩ := exists_masked baseType mac_inside inside
      obtain ⟨crypt', tag, computed, size⟩ := crypt.gmac_ok lib gmacOk keyPos masked
      simp only [masking, ok_bind, computed]
      cases tag with
      | none => exact ⟨some crypt', zeroed, rfl, length⟩
      | some tag =>
          obtain ⟨tagged, stored, -, length'⟩ := @setField_ok zeroed tag macOffset
            (by rw [size tag rfl, length]; exact mac_inside)
          simp only [stored, ok_bind]
          exact ⟨some crypt', tagged, rfl, length'.trans length⟩

theorem packetMac_ok (lib : CryptoLib) (gmacOk : Bool) (crypt : Option GKCrypt) (buf : Bytes)
    (keyPos : Nat) : ∃ r, packetMac lib gmacOk crypt buf keyPos = .ok r ∧ r.buf.length = buf.length := by
  cases buf with
  | nil => exact ⟨_, rfl, rfl⟩
  | cons first rest =>
      unfold packetMac
      dsimp only
      split
      · exact ⟨_, rfl, rfl⟩
      · split
        · exact ⟨_, rfl, rfl⟩
        · split
          · exact ⟨_, rfl, rfl⟩
          · rename_i baseType _ _ macOffset keyPosOffset _ enough
            simp only [Bool.or_eq_true, decide_eq_true_eq, not_or, not_lt] at enough
            obtain ⟨crypt', buf', written, length⟩ :=
              writeGmac_ok lib gmacOk crypt baseType keyPos enough.1 enough.2
            rw [field_eq enough.1, ok_bind, written, ok_bind, field_eq (by rw [length]; exact enough.1)]
            exact ⟨_, rfl, length⟩

theorem writeGmac_isSome {lib : CryptoLib} {gmacOk : Bool} {crypt : Option GKCrypt}
    {baseType : TakionPacketType} {macOffset keyPosOffset keyPos : Nat} {buf : Bytes}
    {r : Option GKCrypt × Bytes}
    (written : writeGmac lib gmacOk crypt baseType macOffset keyPosOffset keyPos buf = .ok r) :
    r.1.isSome = crypt.isSome := by
  obtain ⟨zeroed, -, written⟩ := bind_eq_ok written
  cases crypt with
  | none =>
      obtain rfl := Except.ok.inj written
      rfl
  | some crypt =>
      obtain ⟨masked, -, written⟩ := bind_eq_ok written
      obtain ⟨computed, -, written⟩ := bind_eq_ok written
      cases tag : computed.2 with
      | none =>
          simp only [tag] at written
          obtain rfl := Except.ok.inj written
          rfl
      | some tag' =>
          simp only [tag] at written
          obtain ⟨tagged, -, written⟩ := bind_eq_ok written
          obtain rfl := Except.ok.inj written
          rfl

theorem packetMac_isSome {lib : CryptoLib} {gmacOk : Bool} {crypt : Option GKCrypt} {buf : Bytes}
    {keyPos : Nat} {r : PacketMac} (computed : packetMac lib gmacOk crypt buf keyPos = .ok r) :
    r.crypt.isSome = crypt.isSome := by
  unfold packetMac at computed
  cases buf with
  | nil =>
      obtain rfl := Except.ok.inj computed
      rfl
  | cons first rest =>
      dsimp only at computed
      split at computed
      · obtain rfl := Except.ok.inj computed
        rfl
      · split at computed
        · obtain rfl := Except.ok.inj computed
          rfl
        · split at computed
          · obtain rfl := Except.ok.inj computed
            rfl
          · obtain ⟨macOld, -, computed⟩ := bind_eq_ok computed
            obtain ⟨r', written, computed⟩ := bind_eq_ok computed
            obtain ⟨mac, -, computed⟩ := bind_eq_ok computed
            obtain rfl := Except.ok.inj computed
            exact writeGmac_isSome written

/-! ## What the MAC is computed over -/

/-- The packet with its MAC field zeroed, and for control and congestion packets its key position as well. -/
def Masked (baseType : TakionPacketType) (macOffset keyPosOffset : Nat) (buf masked : Bytes) : Prop :=
  ∀ i, masked[i]? =
    if macOffset ≤ i ∧ i < macOffset + gkcryptGmacSize then some 0
    else if baseType.hidesKeyPos ∧ keyPosOffset ≤ i ∧ i < keyPosOffset + 4 then some 0
    else buf[i]?

theorem getElem?_zeroed {buf zeroed : Bytes} {offset len : Nat}
    (set : setField buf offset (List.replicate len 0) = .ok zeroed) (i : Nat) :
    zeroed[i]? = if offset ≤ i ∧ i < offset + len then some 0 else buf[i]? := by
  rw [getElem?_setField set, List.length_replicate]
  split
  · rw [List.getElem?_replicate_of_lt (by omega)]
  · rfl

theorem maskedForMac_masked {baseType : TakionPacketType} {macOffset keyPosOffset : Nat} {buf masked : Bytes}
    (computed : maskedForMac baseType macOffset keyPosOffset buf = .ok masked) :
    Masked baseType macOffset keyPosOffset buf masked := by
  obtain ⟨zeroed, set, computed⟩ := bind_eq_ok computed
  intro i
  cases hides : baseType.hidesKeyPos with
  | true =>
      rw [hides, if_pos rfl] at computed
      rw [getElem?_zeroed computed, getElem?_zeroed set]
      simp only [true_and]
      split
      · split <;> rfl
      · rfl
  | false =>
      rw [hides] at computed
      obtain rfl := Except.ok.inj computed
      rw [getElem?_zeroed set]
      simp

/-- The packet with its MAC field zeroed, what is authenticated, and the packet with its MAC. -/
structure Tagging (lib : CryptoLib) (crypt : GKCrypt) (baseType : TakionPacketType) (macOffset keyPosOffset keyPos : Nat)
    (buf zeroed masked tagged : Bytes) : Prop where
  set : setField buf macOffset (List.replicate gkcryptGmacSize 0) = .ok zeroed
  masking : maskedForMac baseType macOffset keyPosOffset buf = .ok masked
  stored : setField zeroed macOffset (crypt.tagAt lib keyPos masked) = .ok tagged

theorem exists_tagging (lib : CryptoLib) (crypt : GKCrypt) (baseType : TakionPacketType)
    {macOffset keyPosOffset : Nat} (keyPos : Nat) {buf : Bytes}
    (mac_inside : macOffset + gkcryptGmacSize ≤ buf.length) (inside : keyPosOffset + 4 ≤ buf.length) :
    ∃ zeroed masked tagged, Tagging lib crypt baseType macOffset keyPosOffset keyPos buf zeroed masked tagged := by
  obtain ⟨zeroed, set, -, length⟩ := @setField_ok buf (List.replicate gkcryptGmacSize 0) macOffset
    (by rwa [List.length_replicate])
  obtain ⟨masked, masking⟩ := exists_masked baseType mac_inside inside
  obtain ⟨tagged, stored, -, -⟩ := @setField_ok zeroed (crypt.tagAt lib keyPos masked) macOffset
    (by rw [length, GKCrypt.tagAt, lib.gcmTag_length]; exact mac_inside)
  exact ⟨zeroed, masked, tagged, set, masking, stored⟩

theorem Tagging.writeGmac {lib : CryptoLib} {crypt : GKCrypt} {baseType : TakionPacketType}
    {macOffset keyPosOffset keyPos : Nat} {buf zeroed masked tagged : Bytes}
    (tagging : Tagging lib crypt baseType macOffset keyPosOffset keyPos buf zeroed masked tagged)
    (coherent : crypt.Coherent lib) (gmacOk : Bool) :
    ∃ after, writeGmac lib gmacOk (some crypt) baseType macOffset keyPosOffset keyPos buf =
        .ok (some after, if gmacOk then tagged else zeroed) ∧
      GKCrypt.SameKeys crypt after ∧ after.Coherent lib := by
  obtain ⟨after, computed, same, coherent'⟩ := GKCrypt.gmac_eq lib gmacOk coherent keyPos masked
  refine ⟨after, ?_, same, coherent'⟩
  rw [Chiaki.writeGmac, tagging.set, ok_bind]
  simp only [tagging.masking, ok_bind, computed]
  cases gmacOk with
  | false => rfl
  | true =>
      simp only [if_true, tagging.stored, ok_bind]
      rfl

theorem Tagging.packetMac {lib : CryptoLib} {crypt : GKCrypt} {baseType : TakionPacketType}
    {macOffset keyPosOffset keyPos : Nat} {first : UInt8} {rest zeroed masked tagged : Bytes}
    (tagging : Tagging lib crypt baseType macOffset keyPosOffset keyPos (first :: rest) zeroed masked tagged)
    (coherent : crypt.Coherent lib) (gmacOk : Bool) (type : TakionPacketType.ofByte first = some baseType)
    (offsets : baseType.offsets = some (macOffset, keyPosOffset))
    (mac_inside : macOffset + gkcryptGmacSize ≤ (first :: rest).length)
    (inside : keyPosOffset + 4 ≤ (first :: rest).length) :
    ∃ after, packetMac lib gmacOk (some crypt) (first :: rest) keyPos = .ok ⟨some after,
        if gmacOk then tagged else zeroed,
        .ok (((if gmacOk then tagged else zeroed).drop macOffset).take gkcryptGmacSize,
          ((first :: rest).drop macOffset).take gkcryptGmacSize)⟩ ∧
      GKCrypt.SameKeys crypt after ∧ after.Coherent lib := by
  have length : (if gmacOk then tagged else zeroed).length = (first :: rest).length := by
    have same := Memory.length_of_write (write_of_setField tagging.set)
    have same' := Memory.length_of_write (write_of_setField tagging.stored)
    split <;> omega
  have enough : ¬ ((first :: rest).length < macOffset + gkcryptGmacSize || (first :: rest).length < keyPosOffset + 4) := by
    simp only [Bool.or_eq_true, decide_eq_true_eq, not_or, not_lt]
    exact ⟨mac_inside, inside⟩
  obtain ⟨after, written, same, coherent'⟩ := tagging.writeGmac coherent gmacOk
  refine ⟨after, ?_, same, coherent'⟩
  simp only [Chiaki.packetMac, type, offsets]
  rw [if_neg enough, field_eq mac_inside, ok_bind, written, ok_bind, field_eq (by rw [length]; exact mac_inside)]
  rfl

/-- What `chiaki_takion_packet_mac` does does not depend on the cached key. -/
theorem packetMac_coherent (lib : CryptoLib) (crypt : GKCrypt) (gmacOk : Bool) (buf : Bytes) (keyPos : Nat) :
    ∃ buf' result, ∀ crypt', GKCrypt.SameKeys crypt crypt' → crypt'.Coherent lib →
      ∃ after, packetMac lib gmacOk (some crypt') buf keyPos = .ok ⟨some after, buf', result⟩ ∧
        GKCrypt.SameKeys crypt after ∧ after.Coherent lib := by
  cases buf with
  | nil => exact ⟨[], .error .bufTooSmall, fun crypt' same coherent' => ⟨crypt', rfl, same, coherent'⟩⟩
  | cons first rest =>
      cases type : TakionPacketType.ofByte first with
      | none =>
          refine ⟨first :: rest, .error .invalidData, fun crypt' same coherent' => ⟨crypt', ?_, same, coherent'⟩⟩
          simp only [packetMac, type]
          rfl
      | some baseType =>
          cases offsets : baseType.offsets with
          | none =>
              refine ⟨first :: rest, .error .invalidData, fun crypt' same coherent' => ⟨crypt', ?_, same, coherent'⟩⟩
              simp only [packetMac, type, offsets]
              rfl
          | some pair =>
              obtain ⟨macOffset, keyPosOffset⟩ := pair
              by_cases short : (first :: rest).length < macOffset + gkcryptGmacSize ||
                  (first :: rest).length < keyPosOffset + 4
              · refine ⟨first :: rest, .error .bufTooSmall, fun crypt' same coherent' => ⟨crypt', ?_, same, coherent'⟩⟩
                simp only [packetMac, type, offsets]
                rw [if_pos short]
                rfl
              · simp only [Bool.or_eq_true, decide_eq_true_eq, not_or, not_lt] at short
                obtain ⟨zeroed, masked, tagged, tagging⟩ := exists_tagging lib crypt baseType keyPos short.1 short.2
                refine ⟨if gmacOk then tagged else zeroed,
                  .ok (((if gmacOk then tagged else zeroed).drop macOffset).take gkcryptGmacSize,
                    ((first :: rest).drop macOffset).take gkcryptGmacSize), fun crypt' same coherent' => ?_⟩
                have tagging' : Tagging lib crypt' baseType macOffset keyPosOffset keyPos (first :: rest) zeroed masked
                    tagged := ⟨tagging.set, tagging.masking, by rw [same.tagAt]; exact tagging.stored⟩
                obtain ⟨after, computed, same', coherent''⟩ :=
                  tagging'.packetMac coherent' gmacOk type offsets short.1 short.2
                exact ⟨after, computed, same.trans same', coherent''⟩

end Chiaki
