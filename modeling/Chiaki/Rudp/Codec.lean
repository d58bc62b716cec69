import Chiaki.Rudp.Message

/-!
# The RUDP codec

The parser stays inside its string and ends, whatever the string is, and reads back what the serializer wrote.
-/

namespace Chiaki
open Memory

theorem intOfSize_eq {n : Int} (low : -2 ^ 31 ≤ n) (high : n < 2 ^ 31) : intOfSize n = n := by
  unfold intOfSize
  omega

theorem take_two {buf : Bytes} {offset : Nat} (inside : offset + 2 ≤ buf.length) :
    (buf.drop offset).take 2 = [buf[offset], buf[offset + 1]] := by
  rw [List.drop_eq_getElem_cons (by omega), List.drop_eq_getElem_cons (by omega)]
  rfl

theorem ntoh_two (high low : UInt8) : ntoh [high, low] = high.toNat * 2 ^ 8 + low.toNat := by
  simp [ntoh]

theorem toNat_low_nibble (b : UInt8) : (b &&& 0x0f).toNat = b.toNat % 2 ^ 4 := by
  rw [UInt8.toNat_and]
  exact Nat.and_two_pow_sub_one_eq_mod b.toNat 4

section Header

variable {buf : Bytes} {offset : Nat}

/-- The two numbers of a header. -/
def sizeField (buf : Bytes) (offset : Nat) : Nat := ntoh ((buf.drop offset).take 2)

def typeField (buf : Bytes) (offset : Nat) : Nat := ntoh ((buf.drop (offset + 6)).take 2)

/-- The flags are the upper four bits of the size. Only the first byte of the header changes. -/
theorem rudpHeader_ok (inside : offset + 8 ≤ buf.length) :
    ∃ buf', rudpHeader buf offset = .ok (buf',
        ⟨typeField buf offset / 2 ^ 8, typeField buf offset, sizeField buf offset, 0, offset + 8, [], 0⟩,
        sizeField buf offset % 2 ^ 12) ∧
      buf'.length = buf.length ∧ ∀ i, offset < i → buf'[i]? = buf[i]? := by
  obtain ⟨buf', written⟩ := exists_write buf [buf[offset] &&& 0x0f] offset
    (show offset + 1 ≤ buf.length by omega)
  have length := length_of_write written
  have after := getElem?_of_write written
  have first : buf'[offset]? = some (buf[offset] &&& 0x0f) := by
    rw [after, if_pos ⟨le_rfl, Nat.lt_succ_self _⟩, Nat.sub_self]
    rfl
  have other : ∀ i, offset < i → buf'[i]? = buf[i]? := by
    intro i later
    rw [after, if_neg]
    rintro ⟨-, early⟩
    exact absurd early (Nat.not_lt.mpr later)
  have masked : (buf'.drop offset).take 2 = [buf[offset] &&& 0x0f, buf[offset + 1]] := by
    rw [take_two (show offset + 2 ≤ buf'.length by omega)]
    have second := other (offset + 1) (Nat.lt_succ_self _)
    rw [List.getElem?_eq_getElem (by omega)] at first second
    rw [List.getElem?_eq_getElem (by omega)] at second
    rw [Option.some.inj first, Option.some.inj second]
  have size : sizeField buf offset = buf[offset].toNat * 2 ^ 8 + buf[offset + 1].toNat := by
    rw [sizeField, take_two (by omega), ntoh_two]
  have type : typeField buf offset = buf[offset + 6].toNat * 2 ^ 8 + buf[offset + 7].toNat := by
    rw [typeField, take_two (by omega), ntoh_two]
  have low := buf[offset + 1].toNat_lt
  have low' := buf[offset + 7].toNat_lt
  refine ⟨buf', ?_, length, other⟩
  rw [rudpHeader, read16_eq (by omega), ok_bind, read16_eq (by omega), ok_bind, byteAt_eq (by omega), ok_bind,
    byteAt_eq (by omega), ok_bind, setField, written, inBounds_some, ok_bind, read16_eq (by omega), ok_bind, masked,
    ntoh_two, toNat_low_nibble]
  have subtype : buf[offset + 6].toNat = typeField buf offset / 2 ^ 8 := by omega
  have lower : buf[offset].toNat % 2 ^ 4 * 2 ^ 8 + buf[offset + 1].toNat = sizeField buf offset % 2 ^ 12 := by omega
  rw [subtype, lower]
  rfl

/-- How much data the message at an offset has, with so much of the string left. -/
def dataLength (buf : Bytes) (offset msgSize : Nat) : Nat :=
  if sizeField buf offset % 2 ^ 12 > 8 then min (msgSize - 8) (sizeField buf offset % 2 ^ 12 - 8) else 0

theorem dataLength_le (buf : Bytes) (offset msgSize : Nat) : dataLength buf offset msgSize ≤ msgSize - 8 := by
  unfold dataLength
  split
  · exact Nat.min_le_left _ _
  · exact Nat.zero_le _

/-- The message at an offset, with the given number of bytes as its data. -/
def parsedAt (buf : Bytes) (offset len subSize : Nat) : RudpParsed where
  subtype := typeField buf offset / 2 ^ 8
  type := typeField buf offset
  size := sizeField buf offset
  remoteCounter := if len ≥ 2 then (ntoh ((buf.drop (offset + 8)).take 2) + 1) % 2 ^ 16 else 0
  dataOffset := offset + 8
  data := (buf.drop (offset + 8)).take len
  subMessageSize := subSize

theorem drop_congr {buf buf' : Bytes} {skip : Nat} (same : ∀ i, skip ≤ i → buf'[i]? = buf[i]?) : buf'.drop skip = buf.drop skip := by
  apply List.ext_getElem?
  intro i
  rw [List.getElem?_drop, List.getElem?_drop, same _ (Nat.le_add_right _ _)]

theorem rudpMessageParse_step (alloc : Nat → Bool) (fuel : Nat) {msgSize : Nat} (whole : offset + msgSize = buf.length)
    (header : 8 ≤ msgSize) (small : msgSize < 2 ^ 31) :
    ∃ buf', buf'.length = buf.length ∧ (∀ i, offset < i → buf'[i]? = buf[i]?) ∧
      let len := dataLength buf offset msgSize
      rudpMessageParse alloc (fuel + 1) buf offset msgSize =
        if sizeField buf offset % 2 ^ 12 > 8 && !alloc 0 then .ok ⟨buf', [parsedAt buf offset 0 0], .memory⟩
        else if msgSize - 8 - len < 8 then .ok ⟨buf', [parsedAt buf offset len 0], .success⟩
        else if !alloc 1 then .ok ⟨buf', [parsedAt buf offset len 0], .memory⟩
        else (rudpMessageParse (fun n => alloc (n + 2)) fuel buf' (offset + 8 + len) (msgSize - 8 - len)).map
          fun sub => ⟨sub.buf, parsedAt buf offset len ((msgSize - 8 - len) % 2 ^ 16) :: sub.chain, sub.err⟩ := by
  obtain ⟨buf', parsed, length, other⟩ := rudpHeader_ok (show offset + 8 ≤ buf.length by omega)
  refine ⟨buf', length, other, ?_⟩
  have fits := dataLength_le buf offset msgSize
  have remaining : intOfSize (msgSize - 8) = ((msgSize - 8 : Nat) : Int) := by
    rw [intOfSize_eq] <;> omega
  have size : rudpDataSize (sizeField buf offset % 2 ^ 12) ((msgSize - 8 : Nat) : Int) =
      (dataLength buf offset msgSize : Int) := by
    unfold rudpDataSize dataLength
    split
    · omega
    · rfl
  have same : buf'.drop (offset + 8) = buf.drop (offset + 8) := drop_congr fun i later => other i (by omega)
  generalize dataLength buf offset msgSize = len at fits size ⊢
  have data : ∀ parsed : RudpParsed, parsed.dataOffset = offset + 8 → rudpData buf' parsed len = .ok { parsed with
      data := (buf.drop (offset + 8)).take len
      remoteCounter := if len ≥ 2 then (ntoh ((buf.drop (offset + 8)).take 2) + 1) % 2 ^ 16 else 0 } := by
    intro parsed at_
    have inside : parsed.dataOffset + len ≤ buf'.length := by omega
    rw [rudpData, if_neg (by omega), Int.toNat_natCast, field_eq inside, ok_bind, at_, same]
    by_cases two : len ≥ 2
    · rw [if_pos two, if_pos (by omega), List.take_take, Nat.min_eq_left two]
      rfl
    · rw [if_neg two, if_neg (by omega)]
      rfl
  rw [rudpMessageParse, parsed, ok_bind]
  have left : ((msgSize - 8 : Nat) : Int) - (len : Int) = ((msgSize - 8 - len : Nat) : Int) := by omega
  simp only [remaining, size, ok_bind, data, left, Int.toNat_natCast]
  by_cases failed : (decide (sizeField buf offset % 2 ^ 12 > 8) && !alloc 0) = true
  · rw [if_pos failed, if_pos failed]
    rfl
  rw [if_neg failed, if_neg failed]
  by_cases last : msgSize - 8 - len < 8
  · rw [if_pos last, if_pos (by omega)]
    rfl
  rw [if_neg last, if_neg (by omega)]
  by_cases failed' : (!alloc 1) = true
  · rw [if_pos failed', if_pos failed']
    rfl
  rw [if_neg failed', if_neg failed']
  cases rudpMessageParse (fun n => alloc (n + 2)) fuel buf' (offset + 8 + len) (msgSize - 8 - len) <;> rfl

end Header

/-! ## Any string -/

/-- The data of the messages is taken from the string, the parts one behind the other. -/
structure WithinFrom (buf : Bytes) (start : Nat) (chain : List RudpParsed) : Prop where
  inside : ∀ parsed ∈ chain, start ≤ parsed.dataOffset ∧ parsed.dataOffset + parsed.data.length ≤ buf.length ∧
    parsed.data = (buf.drop parsed.dataOffset).take parsed.data.length
  ordered : chain.Pairwise fun parsed later => parsed.dataOffset + parsed.data.length ≤ later.dataOffset

theorem withinFrom_singleton {buf : Bytes} {offset len subSize : Nat} (inside : offset + 8 + len ≤ buf.length) :
    WithinFrom buf offset [parsedAt buf offset len subSize] := by
  refine ⟨fun parsed member => ?_, List.pairwise_singleton _ _⟩
  obtain rfl := List.mem_singleton.mp member
  have length : ((buf.drop (offset + 8)).take len).length = len := by
    simp only [List.length_take, List.length_drop]
    omega
  simp only [parsedAt, length]
  exact ⟨Nat.le_add_right _ _, inside, trivial⟩

theorem rudpMessageParse_within (alloc : Nat → Bool) {fuel : Nat} {buf : Bytes} {offset msgSize : Nat}
    (whole : offset + msgSize = buf.length) (header : 8 ≤ msgSize) (small : msgSize < 2 ^ 31)
    (enough : msgSize ≤ fuel) :
    ∃ r, rudpMessageParse alloc fuel buf offset msgSize = .ok r ∧ WithinFrom buf offset r.chain := by
  induction fuel generalizing alloc buf offset msgSize with
  | zero => omega
  | succ fuel ih =>
      obtain ⟨buf', length, other, parse⟩ := rudpMessageParse_step alloc fuel whole header small
      have fits := dataLength_le buf offset msgSize
      simp only at parse
      generalize dataLength buf offset msgSize = len at fits parse
      rw [parse]
      split
      · exact ⟨_, rfl, withinFrom_singleton (by omega)⟩
      split
      · exact ⟨_, rfl, withinFrom_singleton (by omega)⟩
      split
      · exact ⟨_, rfl, withinFrom_singleton (by omega)⟩
      have rest : offset + 8 + len + (msgSize - 8 - len) = buf'.length := by omega
      obtain ⟨sub, parsed, within⟩ := ih (fun n => alloc (n + 2)) rest (by omega) (by omega) (by omega)
      have here : WithinFrom buf offset [parsedAt buf offset len ((msgSize - 8 - len) % 2 ^ 16)] :=
        withinFrom_singleton (by omega)
      rw [parsed]
      refine ⟨_, rfl, ?_, ?_⟩
      · intro p member
        rcases List.mem_cons.mp member with rfl | member
        · exact here.inside _ (List.mem_singleton_self _)
        · obtain ⟨later, inside, data⟩ := within.inside p member
          have same : buf'.drop p.dataOffset = buf.drop p.dataOffset := drop_congr fun i behind => other i (by omega)
          exact ⟨by omega, by omega, by rw [← same]; exact data⟩
      · refine List.pairwise_cons.mpr ⟨fun later member => ?_, within.ordered⟩
        have behind := (within.inside later member).1
        have length : (parsedAt buf offset len ((msgSize - 8 - len) % 2 ^ 16)).data.length ≤ len :=
          List.length_take_le _ _
        change offset + 8 + _ ≤ _
        omega

/-- Every message of the chain takes its header and its data from the string. -/
theorem rudpMessageParse_total (alloc : Nat → Bool) {fuel : Nat} {buf : Bytes} {offset msgSize : Nat}
    (whole : offset + msgSize = buf.length) (header : 8 ≤ msgSize) (small : msgSize < 2 ^ 31) {r : RudpParse}
    (parsed : rudpMessageParse alloc fuel buf offset msgSize = .ok r) :
    r.chain ≠ [] ∧ (r.chain.map fun parsed => 8 + parsed.data.length).sum ≤ msgSize := by
  induction fuel generalizing alloc buf offset msgSize r with
  | zero => cases parsed
  | succ fuel ih =>
      obtain ⟨buf', length, -, parse⟩ := rudpMessageParse_step alloc fuel whole header small
      have fits := dataLength_le buf offset msgSize
      simp only at parse
      generalize dataLength buf offset msgSize = len at fits parse
      have taken (n subSize : Nat) : (parsedAt buf offset n subSize).data.length ≤ n := List.length_take_le _ _
      have single (n : Nat) (le : n ≤ msgSize - 8) :
          ([parsedAt buf offset n 0].map fun parsed => 8 + parsed.data.length).sum ≤ msgSize := by
        rw [List.map_singleton, List.sum_singleton]
        have := taken n 0
        omega
      rw [parse] at parsed
      split at parsed
      · obtain rfl := Except.ok.inj parsed
        exact ⟨List.cons_ne_nil _ _, single 0 (Nat.zero_le _)⟩
      split at parsed
      · obtain rfl := Except.ok.inj parsed
        exact ⟨List.cons_ne_nil _ _, single len fits⟩
      split at parsed
      · obtain rfl := Except.ok.inj parsed
        exact ⟨List.cons_ne_nil _ _, single len fits⟩
      have rest : offset + 8 + len + (msgSize - 8 - len) = buf'.length := by omega
      cases later : rudpMessageParse (fun n => alloc (n + 2)) fuel buf' (offset + 8 + len) (msgSize - 8 - len) with
      | error fault =>
          rw [later] at parsed
          cases parsed
      | ok sub =>
          rw [later] at parsed
          obtain rfl := Except.ok.inj parsed
          have total := (ih (fun n => alloc (n + 2)) rest (by omega) (by omega) later).2
          refine ⟨List.cons_ne_nil _ _, ?_⟩
          rw [List.map_cons, List.sum_cons]
          have := taken len ((msgSize - 8 - len) % 2 ^ 16)
          omega

/-! ## What was serialized -/

/-- The size of a message counts its header and its data, with the flags above. -/
structure RudpMessage.WellFormed (message : RudpMessage) : Prop where
  type : message.type < 2 ^ 16
  small : 8 + message.data.length < 4096
  size : message.size = 0xC000 ||| (8 + message.data.length)

/-- The message that was parsed is the one that was serialized. -/
structure RudpParsed.Reads (parsed : RudpParsed) (message : RudpMessage) : Prop where
  type : parsed.type = message.type
  subtype : parsed.subtype = message.type / 2 ^ 8
  size : parsed.size = message.size
  data : parsed.data = message.data
  remoteCounter : parsed.remoteCounter =
    if message.data.length ≥ 2 then (ntoh (message.data.take 2) + 1) % 2 ^ 16 else 0

section Serialized

variable {buf : Bytes} {offset : Nat} {message : RudpMessage} {sub : List RudpMessage}

theorem RudpMessage.WellFormed.size_eq (h : message.WellFormed) : message.size = 0xC000 + (8 + message.data.length) := by
  have small : 8 + message.data.length < 2 ^ 12 := h.small
  rw [h.size]
  exact (Nat.two_pow_add_eq_or_of_lt small 12).symm

theorem length_serialize_cons :
    (rudpMessageSerialize (message :: sub)).length = 8 + message.data.length + (rudpMessageSerialize sub).length := by
  simp only [rudpMessageSerialize, List.length_append, length_htons, length_htonl]

theorem fields_serialized (h : message.WellFormed) (here : buf.drop offset = rudpMessageSerialize (message :: sub)) :
    sizeField buf offset = message.size ∧ typeField buf offset = message.type ∧
      buf.drop (offset + 8) = message.data ++ rudpMessageSerialize sub := by
  have size := h.size_eq
  have small := h.small
  refine ⟨?_, ?_, ?_⟩
  · have read : (buf.drop offset).take 2 = htons message.size := by
      rw [here]
      simp [rudpMessageSerialize, htons]
    rw [sizeField, read, ntoh_htons, Nat.mod_eq_of_lt (by omega)]
  · have read : (buf.drop (offset + 6)).take 2 = htons message.type := by
      rw [← List.drop_drop, here]
      simp [rudpMessageSerialize, htons, htonl]
    rw [typeField, read, ntoh_htons, Nat.mod_eq_of_lt h.type]
  · rw [← List.drop_drop, here]
    simp [rudpMessageSerialize, htons, htonl]

theorem rudpMessageParse_serialized {fuel msgSize : Nat} {chain : List RudpMessage} (nonempty : chain ≠ [])
    (well : ∀ message ∈ chain, message.WellFormed) (here : buf.drop offset = rudpMessageSerialize chain)
    (whole : offset + msgSize = buf.length) (small : msgSize < 2 ^ 31) (enough : msgSize ≤ fuel) :
    ∃ r, rudpMessageParse (fun _ => true) fuel buf offset msgSize = .ok r ∧ r.err = .success ∧
      List.Forall₂ RudpParsed.Reads r.chain chain := by
  induction chain generalizing buf offset msgSize fuel with
  | nil => exact absurd rfl nonempty
  | cons message sub ih =>
      obtain ⟨now, later⟩ := List.forall_mem_cons.mp well
      have length : msgSize = 8 + message.data.length + (rudpMessageSerialize sub).length := by
        rw [← length_serialize_cons, ← here, List.length_drop]
        omega
      obtain ⟨fuel, rfl⟩ : ∃ n, fuel = n + 1 := ⟨fuel - 1, by omega⟩
      obtain ⟨buf', length', other, parse⟩ :=
        rudpMessageParse_step (fun _ => true) fuel whole (by omega) small
      obtain ⟨size, type, data⟩ := fields_serialized now here
      have size' := now.size_eq
      have bound := now.small
      have len : dataLength buf offset msgSize = message.data.length := by
        unfold dataLength
        rw [size]
        split <;> omega
      have reads : ∀ subSize, (parsedAt buf offset message.data.length subSize).Reads message := by
        intro subSize
        refine ⟨type, by rw [← type]; rfl, size, ?_, ?_⟩
        · simp only [parsedAt, data, List.take_left]
        · by_cases two : message.data.length ≥ 2
          · simp only [parsedAt, data, two, if_true, List.take_append_of_le_length two]
          · simp only [parsedAt, two, if_false]
      simp only [len, Bool.not_true, Bool.and_false, Bool.false_eq_true, if_false] at parse
      rw [parse]
      cases sub with
      | nil =>
          have nothing : (rudpMessageSerialize []).length = 0 := rfl
          rw [if_pos (by omega)]
          exact ⟨_, rfl, rfl, .cons (reads 0) .nil⟩
      | cons next rest =>
          have more : (rudpMessageSerialize (next :: rest)).length = 8 + next.data.length + _ := length_serialize_cons
          have later' : ∀ i, offset + 8 + message.data.length ≤ i → buf'[i]? = buf[i]? :=
            fun i behind => other i (by omega)
          have there : buf'.drop (offset + 8 + message.data.length) = rudpMessageSerialize (next :: rest) := by
            rw [drop_congr later', ← List.drop_drop, data, List.drop_left]
          obtain ⟨r, parsed, err, chain⟩ := ih (List.cons_ne_nil _ _) later there
            (show offset + 8 + message.data.length + (msgSize - 8 - message.data.length) = buf'.length by omega)
            (by omega) (show msgSize - 8 - message.data.length ≤ fuel by omega)
          rw [if_neg (by omega), parsed]
          exact ⟨_, rfl, err, .cons (reads _) chain⟩

end Serialized

/-- The parser reads back any chain of messages, and stays inside any string. The sizes are those of `recv`, which
are of type `int`. -/
theorem rudp_codec :
    (∀ chain : List RudpMessage, chain ≠ [] → (∀ message ∈ chain, message.WellFormed) →
      8 < (rudpMessageSerialize chain).length → (rudpMessageSerialize chain).length < 2 ^ 31 →
      ∃ r, rudpParse (fun _ => true) (rudpMessageSerialize chain) = .ok r ∧ r.err = .success ∧
        List.Forall₂ RudpParsed.Reads r.chain chain) ∧
    ∀ (alloc : Nat → Bool) (buf : Bytes), 8 < buf.length → buf.length < 2 ^ 31 →
      ∃ r, rudpParse alloc buf = .ok r ∧ WithinFrom buf 0 r.chain := by
  constructor
  · intro chain nonempty well _ small
    exact rudpMessageParse_serialized nonempty well rfl (Nat.zero_add _) small le_rfl
  · intro alloc buf long small
    exact rudpMessageParse_within alloc (Nat.zero_add _) (Nat.le_of_lt long) small le_rfl

/-- A control message with an acknowledgement in it. -/
def messageWithAck : List RudpMessage :=
  [⟨0x2030, 0xC00C, [0x12, 0xff, 0x34, 0x56]⟩, ⟨0x2430, 0xC008, []⟩]

theorem rudp_codec_ack :
    (∃ r, rudpParse (fun _ => true) (rudpMessageSerialize messageWithAck) = .ok r ∧ r.err = .success ∧
      List.Forall₂ RudpParsed.Reads r.chain messageWithAck) ∧
    ∃ r, rudpParse (fun _ => true) (List.replicate 20 0xff) = .ok r ∧ WithinFrom (List.replicate 20 0xff) 0 r.chain := by
  refine ⟨rudp_codec.1 messageWithAck (by decide) ?_ (by decide) (by decide),
    rudp_codec.2 _ _ (by decide) (by decide)⟩
  intro message member
  simp only [messageWithAck, List.mem_cons, List.not_mem_nil, or_false] at member
  rcases member with rfl | rfl
  · exact ⟨by decide, by decide, by decide⟩
  · exact ⟨by decide, by decide, by decide⟩

end Chiaki
