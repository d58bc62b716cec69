import Chiaki.Takion.Receive
import Chiaki.Takion.Reservation

/-!
# The two sides of a MAC

What one side authenticates the other side verifies, whichever way the packet was built.
-/

namespace Chiaki
open GKCrypt

theorem TakionPacketType.keyPosOffset_of_offsets {baseType : TakionPacketType} {macOffset keyPosOffset : Nat}
    (offsets : baseType.offsets = some (macOffset, keyPosOffset)) :
    baseType.keyPosOffset = some keyPosOffset := by
  cases baseType <;>
    simp_all [TakionPacketType.offsets, TakionPacketType.macOffset, TakionPacketType.keyPosOffset]

/-- The first byte and the key position of a packet are not in its MAC field. -/
theorem TakionPacketType.around_mac {baseType : TakionPacketType} {macOffset keyPosOffset : Nat}
    (offsets : baseType.offsets = some (macOffset, keyPosOffset)) :
    0 < macOffset ∧ keyPosOffset = macOffset + gkcryptGmacSize := by
  cases baseType <;>
    simp_all [TakionPacketType.offsets, TakionPacketType.macOffset, TakionPacketType.keyPosOffset,
      gkcryptGmacSize] <;> omega

/-- A packet with the fields of its type. -/
structure Framed (baseType : TakionPacketType) (macOffset keyPosOffset keyPos : Nat) (buf : Bytes) : Prop where
  type : buf.head?.bind TakionPacketType.ofByte = some baseType
  offsets : baseType.offsets = some (macOffset, keyPosOffset)
  mac_inside : macOffset + gkcryptGmacSize ≤ buf.length
  inside : keyPosOffset + 4 ≤ buf.length
  keyPos : read32 buf keyPosOffset = .ok (keyPos % 2 ^ 32)

section
variable {lib : CryptoLib} {crypt : GKCrypt} {baseType : TakionPacketType} {macOffset keyPosOffset keyPos : Nat}
  {buf zeroed masked tagged : Bytes}

theorem Tagging.length (tagging : Tagging lib crypt baseType macOffset keyPosOffset keyPos buf zeroed masked tagged) :
    tagged.length = buf.length := by
  rw [Memory.length_of_write (write_of_setField tagging.stored), Memory.length_of_write (write_of_setField tagging.set)]

theorem Tagging.outside (tagging : Tagging lib crypt baseType macOffset keyPosOffset keyPos buf zeroed masked tagged)
    {i : Nat} (outside : ¬ (macOffset ≤ i ∧ i < macOffset + gkcryptGmacSize)) : tagged[i]? = buf[i]? := by
  rw [getElem?_setField tagging.stored, if_neg, getElem?_zeroed tagging.set, if_neg outside]
  rwa [tagAt, lib.gcmTag_length]

theorem Tagging.set_again (tagging : Tagging lib crypt baseType macOffset keyPosOffset keyPos buf zeroed masked tagged)
    (inside : macOffset + gkcryptGmacSize ≤ buf.length) :
    setField tagged macOffset (List.replicate gkcryptGmacSize 0) = .ok zeroed := by
  obtain ⟨zeroed', set', -, -⟩ := @setField_ok tagged (List.replicate gkcryptGmacSize 0) macOffset
    (by rwa [List.length_replicate, tagging.length])
  rw [set']
  congr 1
  apply List.ext_getElem?
  intro i
  rw [getElem?_zeroed set', getElem?_zeroed tagging.set]
  split
  · rfl
  · rename_i outside
    exact tagging.outside outside

theorem Tagging.again (tagging : Tagging lib crypt baseType macOffset keyPosOffset keyPos buf zeroed masked tagged)
    (inside : macOffset + gkcryptGmacSize ≤ buf.length) {remote : GKCrypt} (same : SameKeys crypt remote) :
    Tagging lib remote baseType macOffset keyPosOffset keyPos tagged zeroed masked tagged := by
  have set := tagging.set_again inside
  have masking := tagging.masking
  rw [maskedForMac, tagging.set] at masking
  refine ⟨set, ?_, ?_⟩
  · rw [maskedForMac, set]
    exact masking
  · rw [same.tagAt]
    exact tagging.stored

theorem Tagging.framed (tagging : Tagging lib crypt baseType macOffset keyPosOffset keyPos buf zeroed masked tagged)
    (framed : Framed baseType macOffset keyPosOffset keyPos buf) :
    Framed baseType macOffset keyPosOffset keyPos tagged := by
  obtain ⟨type, offsets, mac_inside, inside, position⟩ := framed
  obtain ⟨first, behind⟩ := TakionPacketType.around_mac offsets
  have length := tagging.length
  refine ⟨?_, offsets, by rwa [length], by rwa [length], ?_⟩
  · rw [List.head?_eq_getElem?, tagging.outside (by omega), ← List.head?_eq_getElem?]
    exact type
  · rw [read32_eq (by rw [length]; exact inside)]
    rw [read32_eq inside] at position
    rw [← position]
    congr 2
    apply List.ext_getElem?
    intro i
    rw [List.getElem?_take, List.getElem?_take, List.getElem?_drop, List.getElem?_drop]
    split
    · exact tagging.outside (by omega)
    · rfl

end

/-! ## The receiver -/

theorem packetReadKeyPos_framed {baseType : TakionPacketType} {macOffset keyPosOffset keyPos : Nat} {buf : Bytes}
    (framed : Framed baseType macOffset keyPosOffset keyPos buf) (state : KeyState) :
    packetReadKeyPos state buf = .ok (.ok (state.requestPos (keyPos % 2 ^ 32))) := by
  obtain ⟨type, offsets, -, inside, position⟩ := framed
  cases buf with
  | nil => simp at type
  | cons first rest =>
      simp only [List.head?_cons, Option.bind_some] at type
      simp only [packetReadKeyPos, type, Option.bind_some, TakionPacketType.keyPosOffset_of_offsets offsets]
      rw [if_neg (by omega), position]
      rfl

/-- The receiver takes the packet as it was sent. It computes the tag over the bytes that were authenticated,
and finds it in the MAC field. -/
def Verifies (lib : CryptoLib) (takion : Takion) (remote : GKCrypt) (keyPos : Nat) (authenticated sent : Bytes) :
    Prop :=
  ∃ baseType macOffset keyPosOffset after, Framed baseType macOffset keyPosOffset keyPos sent ∧
    Masked baseType macOffset keyPosOffset sent authenticated ∧
    maskedForMac baseType macOffset keyPosOffset sent = .ok authenticated ∧
    field sent macOffset gkcryptGmacSize = .ok (remote.tagAt lib keyPos authenticated) ∧
    SameKeys remote after ∧
    takion.handlePacketMac lib true sent =
      .ok ({ takion with gkcryptRemote := some after, keyState := takion.keyState.commit keyPos }, sent, .ok ())

/-- A receiver with a GKCrypt for the key and the IV, whose key state gives the position. -/
structure ReceiverFor (lib : CryptoLib) (keyBase iv : Bytes) (takion : Takion) (remote : GKCrypt) (keyPos : Nat) :
    Prop where
  keys : takion.gkcryptRemote = some remote
  used : remote.Used lib keyBase iv
  position : takion.keyState.requestPos (keyPos % 2 ^ 32) = keyPos

theorem Tagging.verifies {lib : CryptoLib} {keyBase iv : Bytes} {crypt remote : GKCrypt} {baseType : TakionPacketType}
    {macOffset keyPosOffset keyPos : Nat} {buf zeroed masked tagged : Bytes} {takion : Takion}
    (tagging : Tagging lib crypt baseType macOffset keyPosOffset keyPos buf zeroed masked tagged)
    (framed : Framed baseType macOffset keyPosOffset keyPos buf) (sender : crypt.Used lib keyBase iv)
    (receiver : ReceiverFor lib keyBase iv takion remote keyPos) :
    Verifies lib takion remote keyPos masked tagged := by
  obtain ⟨keys, used, reconstructed⟩ := receiver
  obtain ⟨same', coherent⟩ := used.coherent
  have same := sender.coherent.1.symm.trans same'
  have again := tagging.again framed.mac_inside same
  have framed' := tagging.framed framed
  have found : field tagged macOffset gkcryptGmacSize = .ok (remote.tagAt lib keyPos masked) := by
    have written := Memory.read_of_write (write_of_setField again.stored)
    rw [tagAt, lib.gcmTag_length] at written
    rw [field, gkcryptGmacSize, written]
    rfl
  have read := packetReadKeyPos_framed framed' takion.keyState
  rw [reconstructed] at read
  cases tagged with
  | nil => simpa using framed'.type
  | cons first rest =>
      obtain ⟨after, computed, same', -⟩ := again.packetMac coherent true framed'.type framed'.offsets
        framed'.mac_inside framed'.inside
      refine ⟨baseType, macOffset, keyPosOffset, after, framed', maskedForMac_masked again.masking, again.masking,
        found, same', ?_⟩
      simp only [Takion.handlePacketMac, keys, read, ok_bind, computed]
      simp
      rfl

/-! ## The senders -/

/-- A packet that a sender handed to the socket, and the bytes it computed the MAC over. -/
inductive AuthenticatedAt (lib : CryptoLib) (crypt : GKCrypt) (keyPos : Nat) : (authenticated sent : Bytes) → Prop
  /-- `chiaki_takion_send`. -/
  | send {takion takion' : TakionLocal} {baseType : TakionPacketType} {macOffset keyPosOffset : Nat}
      {buf authenticated sent : Bytes} :
      takion.gkcryptLocal = some crypt →
      buf.head?.bind TakionPacketType.ofByte = some baseType →
      baseType.offsets = some (macOffset, keyPosOffset) →
      read32 buf keyPosOffset = .ok (keyPos % 2 ^ 32) →
      maskedForMac baseType macOffset keyPosOffset buf = .ok authenticated →
      takion.authenticate lib true true buf keyPos = .ok (takion', .ok sent) →
      AuthenticatedAt lib crypt keyPos authenticated sent
  /-- `chiaki_takion_send_mic_packet`, for a header of audio or video whose MAC field is zero. -/
  | mic {takion takion' : TakionLocal} {stream : Nat → UInt8} {o : TakionLocal.SealOutcome} {packet : MicPacket}
      {baseType : TakionPacketType} {cipher buf authenticated sent : Bytes} {events : List SendEvent} :
      takion.gkcryptLocal = some crypt →
      takion.keyPosLocal = keyPos →
      packet.header.head?.bind TakionPacketType.ofByte = some baseType →
      baseType = .video ∨ baseType = .audio →
      (packet.header.drop 10).take gkcryptGmacSize = List.replicate gkcryptGmacSize 0 →
      cryptBytes stream (some crypt) o.alloc o.stream (keyPos + gkcryptBlockSize) packet.payload = .ok (.ok cipher) →
      setField (packet.header ++ packet.payload) packet.header.length cipher = .ok buf →
      setField buf 14 (htonl keyPos) = .ok authenticated →
      takion.sendMicPacket lib stream o packet = .ok (takion', events, .ok sent) →
      AuthenticatedAt lib crypt keyPos authenticated sent

theorem packetMac_long {lib : CryptoLib} {gmacOk : Bool} {crypt : Option GKCrypt} {buf : Bytes} {keyPos : Nat}
    {baseType : TakionPacketType} {macOffset keyPosOffset : Nat} {r : PacketMac} {macs : Bytes × Bytes}
    (computed : packetMac lib gmacOk crypt buf keyPos = .ok r) (success : r.result = .ok macs)
    (type : buf.head?.bind TakionPacketType.ofByte = some baseType)
    (offsets : baseType.offsets = some (macOffset, keyPosOffset)) :
    macOffset + gkcryptGmacSize ≤ buf.length ∧ keyPosOffset + 4 ≤ buf.length := by
  cases buf with
  | nil => simp at type
  | cons first rest =>
      simp only [List.head?_cons, Option.bind_some] at type
      simp only [packetMac, type, offsets] at computed
      split at computed
      · obtain rfl := Except.ok.inj computed
        cases success
      · rename_i enough
        simpa using enough

theorem authenticate_tagging {lib : CryptoLib} {crypt : GKCrypt} {takion takion' : TakionLocal} {buf sent : Bytes}
    {keyPos : Nat} {baseType : TakionPacketType} {macOffset keyPosOffset : Nat}
    (keys : takion.gkcryptLocal = some crypt) (coherent : crypt.Coherent lib)
    (type : buf.head?.bind TakionPacketType.ofByte = some baseType)
    (offsets : baseType.offsets = some (macOffset, keyPosOffset))
    (position : read32 buf keyPosOffset = .ok (keyPos % 2 ^ 32))
    (done : takion.authenticate lib true true buf keyPos = .ok (takion', .ok sent)) :
    Framed baseType macOffset keyPosOffset keyPos buf ∧
      ∃ zeroed masked, Tagging lib crypt baseType macOffset keyPosOffset keyPos buf zeroed masked sent := by
  rw [TakionLocal.authenticate, keys] at done
  obtain ⟨r, computed, done⟩ := bind_eq_ok done
  obtain ⟨-, result⟩ := Prod.mk.inj (Except.ok.inj done)
  cases success : r.result with
  | error err =>
      rw [success] at result
      cases result
  | ok macs =>
      rw [success] at result
      obtain rfl := Except.ok.inj result
      obtain ⟨mac_inside, inside⟩ := packetMac_long computed success type offsets
      refine ⟨⟨type, offsets, mac_inside, inside, position⟩, ?_⟩
      obtain ⟨zeroed, masked, tagged, tagging⟩ := exists_tagging lib crypt baseType keyPos mac_inside inside
      cases buf with
      | nil => simp at type
      | cons first rest =>
          obtain ⟨after, computed', -, -⟩ := tagging.packetMac coherent true type offsets mac_inside inside
          rw [computed'] at computed
          obtain rfl := Except.ok.inj computed
          exact ⟨zeroed, masked, tagging⟩

theorem TakionLocal.sealAt_sent {lib : CryptoLib} {stream : Nat → UInt8} {takion takion' : TakionLocal}
    {crypt : GKCrypt} {o : SealOutcome} {layout : SealLayout} {keyPos : Nat} {buf sent cipher buf₁ buf₂ : Bytes}
    {events : List SendEvent} (keys : takion.gkcryptLocal = some crypt) (coherent : crypt.Coherent lib)
    (encrypted : cryptBytes stream (some crypt) o.alloc o.stream (keyPos + gkcryptBlockSize)
      (buf.drop layout.headerSize) = .ok (.ok cipher))
    (set₁ : setField buf layout.headerSize cipher = .ok buf₁)
    (set₂ : setField buf₁ layout.keyPos (htonl keyPos) = .ok buf₂)
    (done : takion.sealAt lib stream o layout buf keyPos = .ok (takion', events, .ok sent)) :
    setField buf₂ layout.mac (crypt.tagAt lib keyPos buf₂) = .ok sent := by
  obtain ⟨after, computed, -, -⟩ := gmac_eq lib o.gmac coherent keyPos buf₂
  simp only [sealAt, keys, encrypted, ok_bind, set₁, set₂, deref_some, computed] at done
  cases ok : o.gmac with
  | false =>
      rw [ok] at done
      cases (Prod.mk.inj (Prod.mk.inj (Except.ok.inj done)).2).2
  | true =>
      simp only [ok, if_true] at done
      obtain ⟨tagged, stored, done⟩ := bind_eq_ok done
      obtain rfl := Except.ok.inj (Prod.mk.inj (Prod.mk.inj (Except.ok.inj done)).2).2
      exact stored

theorem TakionLocal.sendSealed_sent {lib : CryptoLib} {stream : Nat → UInt8} {takion takion' : TakionLocal}
    {crypt : GKCrypt} {o : SealOutcome} {layout : SealLayout} {buf sent : Bytes} {events : List SendEvent}
    (keys : takion.gkcryptLocal = some crypt)
    (done : takion.sendSealed lib stream o layout buf = .ok (takion', events, .ok sent)) :
    ∃ (reserved : TakionLocal) (sealing : List SendEvent), reserved.gkcryptLocal = some crypt ∧
      reserved.sealAt lib stream o layout buf takion.keyPosLocal = .ok (takion', sealing, .ok sent) := by
  unfold sendSealed at done
  cases lock : o.lock with
  | false => simp [lock, pure, Except.pure] at done
  | true =>
      rcases takion.reserve_cases o.relock (buf.length - layout.headerSize + gkcryptBlockSize) with
        ⟨err, same⟩ | ⟨none, -⟩ | ⟨-, -, same⟩
      · simp [lock, same, pure, Except.pure] at done
      · simp [keys] at none
      · simp only [lock, same, Bool.not_true, Bool.false_eq_true, if_false] at done
        obtain ⟨⟨takion₁, sealing, r⟩, sealed, done⟩ := bind_eq_ok done
        obtain ⟨rfl, rest⟩ := Prod.mk.inj (Except.ok.inj done)
        obtain ⟨-, rfl⟩ := Prod.mk.inj rest
        refine ⟨_, sealing, ?_, sealed⟩
        exact keys

theorem audioVideo_offsets {baseType : TakionPacketType} (av : baseType = .video ∨ baseType = .audio) :
    baseType.offsets = some (0xa, 0xe) ∧ baseType.hidesKeyPos = false := by
  rcases av with rfl | rfl <;> exact ⟨rfl, rfl⟩

/-- A packet of audio or video with an empty MAC field is authenticated as it is. -/
theorem tagging_of_blank {lib : CryptoLib} {crypt : GKCrypt} {baseType : TakionPacketType} {keyPos : Nat}
    {buf sent : Bytes} (av : baseType = .video ∨ baseType = .audio)
    (blank : ∀ i, 10 ≤ i ∧ i < 10 + gkcryptGmacSize → buf[i]? = some 0) (inside : 10 + gkcryptGmacSize ≤ buf.length)
    (stored : setField buf 10 (crypt.tagAt lib keyPos buf) = .ok sent) :
    Tagging lib crypt baseType 10 14 keyPos buf buf buf sent := by
  obtain ⟨zeroed, set, -, -⟩ := @setField_ok buf (List.replicate gkcryptGmacSize 0) 10 (by rwa [List.length_replicate])
  have same : zeroed = buf := by
    apply List.ext_getElem?
    intro i
    rw [getElem?_zeroed set]
    split
    · rename_i there
      rw [blank i there]
    · rfl
  subst same
  refine ⟨set, ?_, stored⟩
  rw [maskedForMac, set, (audioVideo_offsets av).2]
  rfl

theorem mic_framed {baseType : TakionPacketType} {keyPos : Nat} {packet : MicPacket} {cipher buf framed : Bytes}
    (type : packet.header.head?.bind TakionPacketType.ofByte = some baseType)
    (av : baseType = .video ∨ baseType = .audio)
    (encrypted : setField (packet.header ++ packet.payload) packet.header.length cipher = .ok buf)
    (positioned : setField buf 14 (htonl keyPos) = .ok framed) :
    Framed baseType 10 14 keyPos framed ∧ ∀ i < 14, framed[i]? = packet.header[i]? := by
  have size := packet.header_length
  have length : framed.length = packet.header.length + packet.payload.length := by
    rw [Memory.length_of_write (write_of_setField positioned), Memory.length_of_write (write_of_setField encrypted),
      List.length_append]
  have header : ∀ i < 14, framed[i]? = packet.header[i]? := by
    intro i low
    rw [getElem?_setField positioned, if_neg (by omega), getElem?_setField encrypted, if_neg (by omega),
      List.getElem?_append_left (by omega)]
  refine ⟨⟨?_, (audioVideo_offsets av).1, by rw [gkcryptGmacSize]; omega, by omega, ?_⟩, header⟩
  · rw [List.head?_eq_getElem?, header 0 (by omega), ← List.head?_eq_getElem?]
    exact type
  · have written := Memory.read_of_write (write_of_setField positioned)
    rw [length_htonl] at written
    rw [read32, field, written, inBounds_some, ok_bind, ntoh_htonl]
    rfl

/-- Whichever way a packet was authenticated, its MAC field was zeroed first. -/
theorem AuthenticatedAt.tagging {lib : CryptoLib} {crypt : GKCrypt} {keyPos : Nat} {authenticated sent : Bytes}
    (by_sender : AuthenticatedAt lib crypt keyPos authenticated sent) (coherent : crypt.Coherent lib) :
    ∃ baseType macOffset keyPosOffset buf zeroed, Framed baseType macOffset keyPosOffset keyPos buf ∧
      Tagging lib crypt baseType macOffset keyPosOffset keyPos buf zeroed authenticated sent := by
  cases by_sender with
  | @send _ _ baseType macOffset keyPosOffset buf _ _ keys type offsets position masking done =>
      obtain ⟨framed, zeroed, masked, tagging⟩ := authenticate_tagging keys coherent type offsets position done
      have same := tagging.masking
      rw [masking] at same
      obtain rfl := Except.ok.inj same
      exact ⟨baseType, macOffset, keyPosOffset, buf, zeroed, framed, tagging⟩
  | @mic takion _ _ _ packet baseType _ _ _ _ _ keys next type av blank encrypted set₁ set₂ done =>
      obtain ⟨framed, header⟩ := mic_framed type av set₁ set₂
      subst next
      obtain ⟨reserved, sealing, keys', sealed⟩ := TakionLocal.sendSealed_sent keys done
      have layout : packet.header.length = (TakionLocal.micLayout packet.ps5).headerSize := packet.header_length
      have stored := TakionLocal.sealAt_sent keys' coherent (by rwa [← layout, List.drop_left]) (by rwa [← layout])
        set₂ sealed
      refine ⟨baseType, 10, 14, authenticated, authenticated, framed, ?_⟩
      refine tagging_of_blank av ?_ framed.mac_inside stored
      intro i there
      have zero := congrArg (·[i - 10]?) blank
      simp only [List.getElem?_take_of_lt (show i - 10 < gkcryptGmacSize by omega), List.getElem?_drop,
        List.getElem?_replicate_of_lt (show i - 10 < gkcryptGmacSize by omega)] at zero
      rw [header i (by rw [gkcryptGmacSize] at there; omega), ← zero]
      congr 1
      omega

/-- What a sender authenticates at a position, a receiver with its keys verifies there: both compute the MAC over
the same bytes, and the packet stays as it was sent. -/
theorem mac_agreement {lib : CryptoLib} {keyBase iv : Bytes} {crypt remote : GKCrypt} {takion : Takion} {keyPos : Nat}
    {authenticated sent : Bytes} (sender : crypt.Used lib keyBase iv)
    (by_sender : AuthenticatedAt lib crypt keyPos authenticated sent)
    (receiver : ReceiverFor lib keyBase iv takion remote keyPos) :
    Verifies lib takion remote keyPos authenticated sent := by
  obtain ⟨baseType, macOffset, keyPosOffset, buf, zeroed, framed, tagging⟩ := by_sender.tagging sender.coherent.2
  exact tagging.verifies framed sender receiver

/-- A congestion packet of zeros. -/
theorem mac_agreement_congestion :
    Verifies default zeroReceiver (.ofKeys default (List.replicate 0x10 0) (List.replicate 0x10 0)) 0
      (formatCongestion ⟨0, 0, 0⟩ 0) [5, 0, 0, 0, 0, 0, 0, 0x22, 0xe5, 0xa0, 0x42, 0, 0, 0, 0] := by
  have used : GKCrypt.Used default (List.replicate 0x10 0) (List.replicate 0x10 0)
      (.ofKeys default (List.replicate 0x10 0) (List.replicate 0x10 0)) := ⟨[], [], rfl⟩
  have sent := @AuthenticatedAt.send default _ 0 CryptSenders.zeroKeys.takion _ .congestion _ _
    (formatCongestion ⟨0, 0, 0⟩ 0) _ _ rfl rfl rfl rfl rfl rfl
  exact mac_agreement used sent ⟨rfl, used, rfl⟩

end Chiaki
