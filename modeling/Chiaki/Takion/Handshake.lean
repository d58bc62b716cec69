import Chiaki.Takion.Receive

/-!
# The message header and the handshake

The header of a message is read back as it was written. In the handshake the buffer for a message is on the stack:
a byte of it is known only if it was received.
-/

namespace Chiaki
open Memory

/-! ## Receiving a message of the handshake -/

def takionCookieSize : Nat := 0x20

/-- The buffer on the stack. A byte that was not received is `none`. -/
abbrev MessageBuffer := List (Option UInt8)

/-- What `select` and `recv` come to: an error, or a datagram. -/
abbrev Received := Except ErrorCode Bytes

/-- `takion_recv`: the buffer and the size that was received. -/
def takionRecv (message : MessageBuffer) (bufSize : Nat) :
    Received → Checked (Except ErrorCode (MessageBuffer × Nat))
  | .error err => pure (.error err)
  | .ok datagram =>
      let received := datagram.take bufSize
      if received.length = 0 then pure (.error .network)
      else do
        let message ← inBounds (write message 0 (received.map some))
        pure (.ok (message, received.length))

/-- A byte of the buffer. It must have been received. -/
def receivedByte (message : MessageBuffer) (i : Nat) : Checked UInt8 := inBounds message[i]?.join

/-- `size` bytes of the buffer from an offset on, all of them received. -/
def receivedBytes (message : MessageBuffer) (offset size : Nat) : Checked Bytes :=
  inBounds ((read message offset size).bind (·.mapM id))

/-- The checks of a message that is expected: its size, its type, its header and its chunk type. -/
def expectMessage (keyState : KeyState) (tagLocal : Nat) (chunkType : TakionChunkType) (message : MessageBuffer)
    (receivedSize : Nat) : Checked (KeyState × Except ErrorCode TakionMessage) :=
  if receivedSize < message.length then pure (keyState, .error .invalidResponse)
  else do
    let type ← receivedByte message 0
    if type ≠ TakionPacketType.control.value then pure (keyState, .error .invalidResponse)
    else do
      let buf ← receivedBytes message 1 (receivedSize - 1)
      let r ← parseMessage keyState tagLocal buf
      match r.2 with
      | .error _ => pure (r.1, .error .invalidResponse)
      | .ok msg =>
          if msg.chunkType ≠ chunkType.value ∨ msg.chunkFlags ≠ 0 then pure (r.1, .error .invalidResponse)
          else pure (r.1, .ok msg)

/-- `TakionMessagePayloadInitAck`. -/
structure TakionMessagePayloadInitAck where
  tag : Nat
  aRwnd : Nat
  outboundStreams : Nat
  inboundStreams : Nat
  initialSeqNum : Nat
  cookie : Bytes

def initAckSize : Nat := 1 + takionMessageHeaderSize + 0x10 + takionCookieSize

/-- `takion_recv_message_init_ack`. -/
def recvMessageInitAck (keyState : KeyState) (tagLocal : Nat) (arrival : Received) :
    Checked (KeyState × Except ErrorCode TakionMessagePayloadInitAck) := do
  match ← takionRecv (List.replicate initAckSize none) initAckSize arrival with
  | .error err => pure (keyState, .error err)
  | .ok (message, receivedSize) => do
      let r ← expectMessage keyState tagLocal .initAck message receivedSize
      match r.2 with
      | .error err => pure (r.1, .error err)
      | .ok msg => do
          assert (msg.payload.length = 0x10 + takionCookieSize)
          let tag ← read32 msg.payload 0
          let aRwnd ← read32 msg.payload 4
          let outboundStreams ← read16 msg.payload 8
          let inboundStreams ← read16 msg.payload 0xa
          let initialSeqNum ← read32 msg.payload 0xc
          let cookie ← field msg.payload 0x10 takionCookieSize
          pure (r.1, .ok ⟨tag, aRwnd, outboundStreams, inboundStreams, initialSeqNum, cookie⟩)

def cookieAckSize : Nat := 1 + takionMessageHeaderSize

/-- `takion_recv_message_cookie_ack` from the check of the size on. -/
def handleCookieAck (keyState : KeyState) (tagLocal : Nat) (message : MessageBuffer) (receivedSize : Nat) :
    Checked (KeyState × Except ErrorCode Unit) := do
  let r ← expectMessage keyState tagLocal .cookieAck message receivedSize
  match r.2 with
  | .error err => pure (r.1, .error err)
  | .ok msg => do
      assert (msg.payload.length = 0)
      pure (r.1, .ok ())

/-- `takion_recv_message_cookie_ack`. The chunk type is looked at before the size is. -/
def recvMessageCookieAck (keyState : KeyState) (tagLocal : Nat) (first second : Received) :
    Checked (KeyState × Except ErrorCode Unit) := do
  match ← takionRecv (List.replicate cookieAckSize none) cookieAckSize first with
  | .error err => pure (keyState, .error err)
  | .ok (message, receivedSize) => do
      let chunkType ← receivedByte message 0xd
      if chunkType = TakionChunkType.initAck.value then do
        match ← takionRecv message receivedSize second with
        | .error err => pure (keyState, .error err)
        | .ok (message, receivedSize) => handleCookieAck keyState tagLocal message receivedSize
      else handleCookieAck keyState tagLocal message receivedSize

/-! ## The header is read back -/

/-- A header with the tag of the receiver, followed by its payload, is parsed to what it was written from. -/
def MessageRoundTrips (keyState : KeyState) (tagLocal : Nat) : Prop :=
  ∀ (keyPos : Nat) (chunkType chunkFlags : UInt8) (payload : Bytes), payload.length ≤ 65531 →
    parseMessage keyState tagLocal
        (writeMessageHeader tagLocal keyPos chunkType chunkFlags payload.length ++ payload) =
      .ok ((keyState.requestCommit (keyPos % 2 ^ 32)).1,
        .ok ⟨tagLocal, (keyState.requestCommit (keyPos % 2 ^ 32)).2, chunkType, chunkFlags, payload⟩)

/-- The size in a header: that of the payload and four bytes of the header. -/
def declaredSize (buf : Bytes) : Nat := ntoh ((buf.drop 0xe).take 2)

/-- Parsing stays inside the buffer, and what it accepts has the tag of the receiver and the size that it declares. -/
def MessageAccepted (keyState : KeyState) (tagLocal : Nat) : Prop :=
  ∀ buf, ∃ keyState' result, parseMessage keyState tagLocal buf = .ok (keyState', result) ∧
    ∀ msg, result = .ok msg → ntoh (buf.take 4) = tagLocal ∧ msg.tag = tagLocal ∧
      buf.length = declaredSize buf + 0xc ∧ 4 ≤ declaredSize buf ∧
      msg.payload = buf.drop takionMessageHeaderSize ∧ msg.payload.length = declaredSize buf - 4

theorem parseMessage_eq (keyState : KeyState) (tagLocal : Nat) {buf : Bytes}
    (long : takionMessageHeaderSize ≤ buf.length) : ∃ chunkType chunkFlags,
    buf[0xc]? = some chunkType ∧ buf[0xd]? = some chunkFlags ∧
      parseMessage keyState tagLocal buf = .ok ((keyState.requestCommit (ntoh ((buf.drop 8).take 4))).1,
        if ntoh (buf.take 4) ≠ tagLocal then .error .invalidData
        else if buf.length ≠ declaredSize buf + 0xc then .error .invalidData
        else .ok ⟨ntoh (buf.take 4), (keyState.requestCommit (ntoh ((buf.drop 8).take 4))).2, chunkType, chunkFlags,
          buf.drop takionMessageHeaderSize⟩) := by
  have short : ¬ buf.length < takionMessageHeaderSize := not_lt.mpr long
  rw [takionMessageHeaderSize] at long
  refine ⟨_, _, List.getElem?_eq_getElem (by omega), List.getElem?_eq_getElem (by omega), ?_⟩
  rw [parseMessage, if_neg short, read32_eq (by omega), ok_bind, read32_eq (by omega), ok_bind]
  dsimp only
  rw [byteAt_eq (by omega), ok_bind, byteAt_eq (by omega), ok_bind, read16_eq (by omega), ok_bind]
  change (if ntoh (buf.take 4) ≠ tagLocal then _ else if buf.length ≠ declaredSize buf + 0xc then _ else _) = _
  split
  · rfl
  split <;> rfl

theorem messageRoundTrips (keyState : KeyState) {tagLocal : Nat} (tag_lt : tagLocal < 2 ^ 32) :
    MessageRoundTrips keyState tagLocal := by
  intro keyPos chunkType chunkFlags payload size
  have length : (writeMessageHeader tagLocal keyPos chunkType chunkFlags payload.length ++ payload).length =
      takionMessageHeaderSize + payload.length := by
    rw [List.length_append, length_writeMessageHeader]
  obtain ⟨type', flags', type, flags, parsed⟩ :=
    parseMessage_eq keyState tagLocal (length.symm ▸ Nat.le_add_right takionMessageHeaderSize payload.length)
  obtain rfl : chunkType = type' := Option.some.inj type
  obtain rfl : chunkFlags = flags' := Option.some.inj flags
  have tag : ntoh ((writeMessageHeader tagLocal keyPos chunkType chunkFlags payload.length ++ payload).take 4) =
      tagLocal := (ntoh_htonl tagLocal).trans (Nat.mod_eq_of_lt tag_lt)
  have keyPosLow : ntoh (((writeMessageHeader tagLocal keyPos chunkType chunkFlags payload.length ++
      payload).drop 8).take 4) = keyPos % 2 ^ 32 := ntoh_htonl keyPos
  have declared : declaredSize (writeMessageHeader tagLocal keyPos chunkType chunkFlags payload.length ++ payload) =
      payload.length + 4 := (ntoh_htons _).trans (Nat.mod_eq_of_lt (by omega))
  have fits : ¬ (writeMessageHeader tagLocal keyPos chunkType chunkFlags payload.length ++ payload).length ≠
      declaredSize (writeMessageHeader tagLocal keyPos chunkType chunkFlags payload.length ++ payload) + 0xc := by
    rw [length, declared, takionMessageHeaderSize]
    omega
  rw [parsed, tag, keyPosLow, if_neg (not_not_intro rfl), if_neg fits]
  rfl

theorem messageAccepted (keyState : KeyState) (tagLocal : Nat) : MessageAccepted keyState tagLocal := by
  intro buf
  by_cases long : takionMessageHeaderSize ≤ buf.length
  · obtain ⟨chunkType, chunkFlags, -, -, parsed⟩ := parseMessage_eq keyState tagLocal long
    refine ⟨_, _, parsed, fun msg accepted => ?_⟩
    split at accepted
    · cases accepted
    rename_i tag
    split at accepted
    · cases accepted
    rename_i fits
    obtain rfl := Except.ok.inj accepted
    rw [not_not] at tag fits
    rw [takionMessageHeaderSize] at long
    refine ⟨tag, tag, fits, by omega, rfl, ?_⟩
    rw [List.length_drop, takionMessageHeaderSize]
    omega
  · exact ⟨_, _, if_pos (not_le.mp long), fun msg accepted => by cases accepted⟩

/-! ## Nothing is read that was not received -/

/-- What stands in the front of the buffer was received, and the rest is what it was. -/
theorem takionRecv_cases {message : MessageBuffer} {bufSize : Nat} (inside : bufSize ≤ message.length)
    (arrival : Received) :
    ((∃ err, takionRecv message bufSize arrival = .ok (.error err)) ∧
      ∀ datagram, arrival = .ok datagram → datagram.take bufSize = []) ∨
    ∃ datagram message', arrival = .ok datagram ∧ datagram ≠ [] ∧
      takionRecv message bufSize arrival = .ok (.ok (message', (datagram.take bufSize).length)) ∧
      message'.length = message.length ∧
      message'.take (datagram.take bufSize).length = (datagram.take bufSize).map some ∧
      message'.drop (datagram.take bufSize).length = message.drop (datagram.take bufSize).length := by
  cases arrival with
  | error err => exact .inl ⟨⟨err, rfl⟩, fun datagram arrived => by cases arrived⟩
  | ok datagram =>
      by_cases none : (datagram.take bufSize).length = 0
      · refine .inl ⟨⟨.network, if_pos none⟩, fun datagram' arrived => ?_⟩
        obtain rfl := Except.ok.inj arrived
        exact List.length_eq_zero_iff.mp none
      · have room : 0 + ((datagram.take bufSize).map some).length ≤ message.length := by
          rw [List.length_map, List.length_take]
          omega
        refine .inr ⟨datagram, _, rfl, ?_, ?_, length_of_write (write_eq_some room), ?_, ?_⟩
        · rintro rfl
          exact none (by simp)
        · rw [takionRecv, if_neg none, write_eq_some room]
          rfl
        · rw [List.take_zero, List.nil_append, ← List.length_map some, List.take_left]
        · rw [List.take_zero, List.nil_append, Nat.zero_add, ← List.length_map some, List.drop_left]

theorem mapM_received (bytes : Bytes) : (bytes.map some).mapM id = some bytes := by
  induction bytes with
  | nil => rfl
  | cons b bytes ih => simp [ih]

section Received
variable {message : MessageBuffer} {receivedSize : Nat} {bytes : Bytes}
  (received : message.take receivedSize = bytes.map some)
include received

theorem receivedByte_eq {i : Nat} (before : i < receivedSize) : receivedByte message i = inBounds bytes[i]? := by
  have same : message[i]? = (bytes.map some)[i]? := by rw [← received, List.getElem?_take_of_lt before]
  rw [receivedByte, same, List.getElem?_map]
  cases bytes[i]? <;> rfl

theorem receivedBytes_eq (enough : receivedSize ≤ message.length) (some_ : 0 < receivedSize) :
    receivedBytes message 1 (receivedSize - 1) = .ok (bytes.drop 1) := by
  have same : (message.drop 1).take (receivedSize - 1) = (bytes.drop 1).map some := by
    rw [List.map_drop, ← received, List.drop_take]
  rw [receivedBytes, read_eq_some (by omega), same]
  exact congrArg inBounds (mapM_received _)

theorem expectMessage_ok (keyState : KeyState) (tagLocal : Nat) (chunkType : TakionChunkType)
    (enough : receivedSize ≤ message.length) (some_ : 0 < message.length) :
    ∃ keyState' result, expectMessage keyState tagLocal chunkType message receivedSize = .ok (keyState', result) ∧
      ∀ msg, result = .ok msg → message.length = 1 + takionMessageHeaderSize + msg.payload.length := by
  unfold expectMessage
  split
  · exact ⟨_, _, rfl, fun msg accepted => by cases accepted⟩
  rename_i full
  have size : bytes.length = receivedSize := by
    have lengths := congrArg List.length received
    rw [List.length_take, List.length_map] at lengths
    omega
  rw [receivedByte_eq received (by omega), List.getElem?_eq_getElem (by omega), inBounds_some, ok_bind]
  split
  · exact ⟨_, _, rfl, fun msg accepted => by cases accepted⟩
  obtain ⟨keyState', result, parsed, accepts⟩ := messageAccepted keyState tagLocal (bytes.drop 1)
  rw [receivedBytes_eq received enough (by omega), ok_bind, parsed, ok_bind]
  cases result with
  | error err => exact ⟨_, _, rfl, fun msg accepted => by cases accepted⟩
  | ok msg =>
      dsimp only
      split
      · exact ⟨_, _, rfl, fun msg accepted => by cases accepted⟩
      refine ⟨_, _, rfl, fun msg' accepted => ?_⟩
      obtain rfl := Except.ok.inj accepted
      obtain ⟨-, -, fits, least, -, payload⟩ := accepts msg rfl
      rw [List.length_drop] at fits
      rw [takionMessageHeaderSize]
      omega

end Received

/-- The assertion on the size of an init ack holds, and so do the reads behind it. -/
theorem recvMessageInitAck_ok (keyState : KeyState) (tagLocal : Nat) (arrival : Received) :
    ∃ r, recvMessageInitAck keyState tagLocal arrival = .ok r := by
  unfold recvMessageInitAck
  rcases takionRecv_cases (le_of_eq (List.length_replicate (a := none)).symm) arrival with ⟨⟨err, failed⟩, -⟩ |
    ⟨datagram, message, -, -, got, length, received, -⟩
  · rw [failed, ok_bind]
    exact ⟨_, rfl⟩
  rw [List.length_replicate] at length
  obtain ⟨keyState', result, expected, fills⟩ := expectMessage_ok received keyState tagLocal .initAck
    (by rw [length, List.length_take]; exact Nat.min_le_left _ _) (by rw [length]; decide)
  rw [got, ok_bind]
  dsimp only
  rw [expected, ok_bind]
  cases result with
  | error err => exact ⟨_, rfl⟩
  | ok msg =>
      have size : msg.payload.length = 0x10 + takionCookieSize := by
        have filled := fills msg rfl
        rw [length, initAckSize] at filled
        omega
      have bound : msg.payload.length = 0x30 := size
      dsimp only
      rw [decide_eq_true size, assert_true, ok_bind, read32_eq (by omega), ok_bind, read32_eq (by omega), ok_bind,
        read16_eq (by omega), ok_bind, read16_eq (by omega), ok_bind, read32_eq (by omega), ok_bind,
        field_eq size.ge, ok_bind]
      exact ⟨_, rfl⟩

theorem handleCookieAck_ok (keyState : KeyState) (tagLocal : Nat) {message : MessageBuffer} {receivedSize : Nat}
    {bytes : Bytes} (received : message.take receivedSize = bytes.map some) (size : message.length = cookieAckSize)
    (enough : receivedSize ≤ message.length) : ∃ r, handleCookieAck keyState tagLocal message receivedSize = .ok r := by
  obtain ⟨keyState', result, expected, fills⟩ := expectMessage_ok received keyState tagLocal .cookieAck enough
    (by rw [size]; decide)
  rw [handleCookieAck, expected, ok_bind]
  cases result with
  | error err => exact ⟨_, rfl⟩
  | ok msg =>
      have none : msg.payload.length = 0 := by
        have filled := fills msg rfl
        rw [size, cookieAckSize] at filled
        omega
      dsimp only
      rw [decide_eq_true none, assert_true, ok_bind]
      exact ⟨_, rfl⟩

/-- The chunk type of the first datagram is looked at, whatever its size. -/
theorem recvMessageCookieAck_ok_iff (keyState : KeyState) (tagLocal : Nat) (first second : Received) :
    (∃ r, recvMessageCookieAck keyState tagLocal first second = .ok r) ↔
      ∀ datagram, first = .ok datagram → datagram ≠ [] → 0xe ≤ datagram.length := by
  unfold recvMessageCookieAck
  rcases takionRecv_cases (le_of_eq (List.length_replicate (a := none)).symm) first with ⟨⟨err, failed⟩, nothing⟩ |
    ⟨datagram, message, rfl, some_, got, length, received, rest⟩
  · rw [failed, ok_bind]
    refine ⟨fun _ datagram arrived some_ => ?_, fun _ => ⟨_, rfl⟩⟩
    rcases List.take_eq_nil_iff.mp (nothing datagram arrived) with none | none
    · cases none
    · exact absurd none some_
  rw [List.length_replicate] at length
  have size : (datagram.take cookieAckSize).length = min cookieAckSize datagram.length := List.length_take
  have received_le : (datagram.take cookieAckSize).length ≤ message.length := by
    rw [length, size]
    exact Nat.min_le_left _ _
  rw [got, ok_bind]
  dsimp only
  constructor
  · rintro ⟨r, done⟩ datagram' arrived -
    obtain rfl := Except.ok.inj arrived
    obtain ⟨chunkType, looked, -⟩ := bind_eq_ok done
    by_contra short
    have outside : message[0xd]?.join = none := by
      have behind : message[0xd]? = (List.replicate cookieAckSize none)[0xd]? := by
        have shorter : (datagram.take cookieAckSize).length ≤ 0xd := by
          rw [size]
          omega
        have same := congrArg (·[0xd - (datagram.take cookieAckSize).length]?) rest
        simpa only [List.getElem?_drop, Nat.add_sub_cancel' shorter] using same
      rw [behind]
      rfl
    rw [receivedByte, outside] at looked
    cases looked
  · intro long
    have enough := long datagram rfl some_
    have before : 0xd < (datagram.take cookieAckSize).length := by
      rw [size, cookieAckSize, takionMessageHeaderSize]
      omega
    rw [receivedByte_eq received before, List.getElem?_eq_getElem before, inBounds_some, ok_bind]
    split
    · rcases takionRecv_cases received_le second with ⟨⟨err, failed⟩, -⟩ |
        ⟨datagram', message', -, -, got', length', received', -⟩
      · rw [failed, ok_bind]
        exact ⟨_, rfl⟩
      · rw [got', ok_bind]
        refine handleCookieAck_ok keyState tagLocal received' (length'.trans length) ?_
        rw [length', List.length_take]
        exact (Nat.min_le_left _ _).trans received_le
    · exact handleCookieAck_ok keyState tagLocal received length received_le

/-- The header is read back, nothing is accepted that does not fit, and the handshake uses only what it received,
exactly if the first datagram that answers the cookie reaches its chunk type. -/
theorem messageHeader_iff (keyState : KeyState) {tagLocal : Nat} (tag_lt : tagLocal < 2 ^ 32)
    (initAck first second : Received) :
    (MessageRoundTrips keyState tagLocal ∧ MessageAccepted keyState tagLocal ∧
      (∃ r, recvMessageInitAck keyState tagLocal initAck = .ok r) ∧
      ∃ r, recvMessageCookieAck keyState tagLocal first second = .ok r) ↔
    ∀ datagram, first = .ok datagram → datagram ≠ [] → 0xe ≤ datagram.length := by
  rw [recvMessageCookieAck_ok_iff]
  exact ⟨fun h => h.2.2.2, fun h => ⟨messageRoundTrips keyState tag_lt, messageAccepted keyState tagLocal,
    recvMessageInitAck_ok keyState tagLocal initAck, h⟩⟩

theorem messageHeader_cookieAck : (1 : Nat) < 2 ^ 32 ∧
    (MessageRoundTrips .init 1 ∧ MessageAccepted .init 1 ∧
      (∃ r, recvMessageInitAck .init 1 (.error .timeout) = .ok r) ∧
      ∃ r, recvMessageCookieAck .init 1
        (.ok (0 :: writeMessageHeader 1 0 TakionChunkType.cookieAck.value 0 0)) (.error .timeout) = .ok r) :=
  ⟨by decide, (messageHeader_iff .init (by decide) _ _ _).mpr fun datagram arrived _ => by
    obtain rfl := Except.ok.inj arrived
    decide⟩

/-- One byte arrives, and the chunk type behind it is looked at. -/
theorem not_messageHeader_short : ¬ ∃ r, recvMessageCookieAck .init 1 (.ok [0]) (.error .timeout) = .ok r := by
  rintro ⟨r, done⟩
  cases done

end Chiaki
