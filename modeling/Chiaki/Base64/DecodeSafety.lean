import Chiaki.Base64.Decode

/-!
# Texts that are no base64

What `chiaki_base64_decode` does with any bytes.
-/

namespace Chiaki
open Memory

/-- A byte that is skipped, or decoded. -/
def Base64Plain (c : UInt8) : Prop := c ∈ base64Chars ∨ c = 0x0a

/-- A byte that is neither, and does not end the text. -/
def Base64Bad (c : UInt8) : Prop := ¬ Base64Plain c ∧ c ≠ 0x3d

/-- The byte is the first one that is not plain, and the capacity is not exceeded before it. -/
def Base64Reaches (outSize : Nat) (input : Bytes) (c : UInt8) : Prop := ∃ before behind, input = before ++ c :: behind ∧
  (∀ b ∈ before, Base64Plain b) ∧ 3 * (before.countP (· ∈ base64Chars) / 4) ≤ outSize

/-- The decoder with a capacity and the memory behind it. -/
structure Base64DecoderSafe (charSigned : Bool) (input out beyond : Bytes) : Prop where
  inTable : ∃ r, chiakiBase64Decode charSigned input (out ++ beyond) out.length = .ok r
  invalid : ∀ r, chiakiBase64Decode charSigned input (out ++ beyond) out.length = .ok r →
    (r.err = .invalidData ↔ ∃ c, Base64Bad c ∧ Base64Reaches out.length input c)
  inside : ∀ r, chiakiBase64Decode charSigned input (out ++ beyond) out.length = .ok r →
    ∃ written, written.length = out.length ∧ r.out = written ++ beyond
  sizeKept : ∀ r, chiakiBase64Decode charSigned input (out ++ beyond) out.length = .ok r →
    r.err ≠ .success → r.outSize = out.length

/-! ## The bytes -/

section Bytes
variable {charSigned : Bool} {c : UInt8}

theorem base64Value_eq (small : charSigned = true → c < 0x80) : base64Value charSigned c =
    .ok (if c ∈ base64Chars then base64Chars.idxOf c else if c = 0x0a then base64Whitespace
      else if c = 0x3d then base64Equals else base64Invalid) := by
  rw [base64Value, charIndex_small small, base64Values_get]
  rfl

theorem base64Value_char (member : c ∈ base64Chars) : ∃ v < 2 ^ 6, base64Value charSigned c = .ok v := by
  refine ⟨base64Chars.idxOf c, base64Chars_idxOf member, ?_⟩
  rw [base64Value_eq fun _ => base64Chars_small member, if_pos member]

theorem base64Value_newline : base64Value charSigned 0x0a = .ok base64Whitespace := by
  cases charSigned <;> decide

theorem base64Value_bad (bad : Base64Bad c) (small : charSigned = true → c < 0x80) :
    base64Value charSigned c = .ok base64Invalid := by
  obtain ⟨notPlain, notEquals⟩ := bad
  rw [base64Value_eq small, if_neg fun member => notPlain (.inl member), if_neg fun newline => notPlain (.inr newline),
    if_neg notEquals]

theorem Base64Plain.small (plain : Base64Plain c) : c < 0x80 := by
  rcases plain with member | rfl
  · exact base64Chars_small member
  · decide

theorem base64Bad_of_negative (negative : 0x80 ≤ c) : Base64Bad c := by
  constructor
  · intro plain
    exact absurd plain.small (UInt8.not_lt.mpr negative)
  · rintro rfl
    exact absurd negative (by decide)

end Bytes

/-! ## The first byte that is not plain -/

/-- As `Base64Reaches`, behind some characters. -/
def ReachesBehind (outSize chars : Nat) (input : Bytes) (c : UInt8) : Prop := ∃ before behind, input = before ++ c :: behind ∧
  (∀ b ∈ before, Base64Plain b) ∧ 3 * ((chars + before.countP (· ∈ base64Chars)) / 4) ≤ outSize

section Reaches
variable {outSize chars : Nat} {rest : Bytes} {b c : UInt8}

theorem not_reachesBehind_nil : ¬ ReachesBehind outSize chars [] c := by
  rintro ⟨before, behind, eq, -⟩
  simp at eq

theorem reachesBehind_cons_self_iff (other : ¬ Base64Plain b) :
    ReachesBehind outSize chars (b :: rest) c ↔ c = b ∧ 3 * (chars / 4) ≤ outSize := by
  constructor
  · rintro ⟨before, behind, eq, plain, fits⟩
    cases before with
    | nil =>
        obtain ⟨rfl, -⟩ := List.cons.inj eq
        exact ⟨rfl, fits⟩
    | cons x before =>
        obtain ⟨rfl, -⟩ := List.cons.inj eq
        exact absurd (plain b List.mem_cons_self) other
  · rintro ⟨rfl, fits⟩
    exact ⟨[], rest, rfl, List.forall_mem_nil _, fits⟩

theorem reachesBehind_cons_iff (plain : Base64Plain b) (other : ¬ Base64Plain c) :
    ReachesBehind outSize chars (b :: rest) c ↔
      ReachesBehind outSize (if b ∈ base64Chars then chars + 1 else chars) rest c := by
  have count (before : Bytes) : chars + (b :: before).countP (· ∈ base64Chars) =
      (if b ∈ base64Chars then chars + 1 else chars) + before.countP (· ∈ base64Chars) := by
    rw [List.countP_cons]
    by_cases member : b ∈ base64Chars
    · simp only [member, decide_true, if_true]
      omega
    · simp [member]
  constructor
  · rintro ⟨before, behind, eq, all, fits⟩
    cases before with
    | nil =>
        obtain ⟨rfl, -⟩ := List.cons.inj eq
        exact absurd plain other
    | cons x before =>
        obtain ⟨rfl, tail⟩ := List.cons.inj eq
        rw [count] at fits
        exact ⟨before, behind, tail, (List.forall_mem_cons.mp all).2, fits⟩
  · rintro ⟨before, behind, rfl, all, fits⟩
    rw [← count] at fits
    exact ⟨b :: before, behind, rfl, List.forall_mem_cons.mpr ⟨plain, all⟩, fits⟩

theorem not_reachesBehind_of_lt (exceeded : outSize < 3 * (chars / 4)) : ¬ ReachesBehind outSize chars rest c := by
  rintro ⟨before, behind, -, -, fits⟩
  omega

end Reaches

/-! ## The loop -/

/-- Behind some characters, whose bytes are in the output so far as they came in groups. -/
structure Base64Decoder.Behind (outSize : Nat) (beyond : Bytes) (chars : Nat) (s : Base64Decoder) : Prop where
  iter : s.iter = chars % 4
  len : s.len = 3 * (chars / 4)
  outPos : s.outPos = s.len
  fits : s.len ≤ outSize
  out : ∃ written, written.length = outSize ∧ s.out = written ++ beyond

/-- What the decoder may return, where the data may be bad. -/
structure Base64Decoded.Fine (outSize : Nat) (beyond : Bytes) (bad : Prop) (r : Base64Decoded) : Prop where
  invalid : r.err = .invalidData ↔ bad
  inside : ∃ written, written.length = outSize ∧ r.out = written ++ beyond
  sizeKept : r.err ≠ .success → r.outSize = outSize

section Loop
variable {charSigned : Bool} {outSize chars : Nat} {beyond : Bytes} {s : Base64Decoder}

theorem setField_inside {written data : Bytes} {pos : Nat} (size : written.length = outSize) (fits : pos + data.length ≤ outSize) :
    ∃ written', written'.length = outSize ∧ setField (written ++ beyond) pos data = .ok (written' ++ beyond) := by
  obtain ⟨buf, set, wrote, length⟩ := @setField_ok (written ++ beyond) data pos (by rw [List.length_append]; omega)
  have kept := drop_of_write wrote fits
  rw [← size, List.drop_left] at kept
  refine ⟨buf.take written.length, ?_, ?_⟩
  · rw [List.length_take, length, List.length_append]
    omega
  · rw [set]
    apply congrArg Except.ok
    conv_lhs => rw [← List.take_append_drop written.length buf, kept]

theorem Base64Decoder.Behind.next (behind : s.Behind outSize beyond chars) (more : s.iter + 1 ≠ 4) (buf : Nat) :
    Base64Decoder.Behind outSize beyond (chars + 1) { s with iter := s.iter + 1, buf := buf } := by
  obtain ⟨iter, len, outPos, fits, out⟩ := behind
  exact ⟨by dsimp only; omega, by dsimp only; omega, outPos, fits, out⟩

theorem decodeEnd_fine (behind : s.Behind outSize beyond chars) :
    ∃ r, decodeEnd outSize s = .ok r ∧ r.Fine outSize beyond False := by
  obtain ⟨iter, len, outPos, fits, written, size, out⟩ := behind
  rw [decodeEnd, out, outPos]
  split
  · split
    · exact ⟨_, rfl, by simp, ⟨written, size, rfl⟩, fun _ => rfl⟩
    · obtain ⟨written', size', set⟩ := @setField_inside outSize beyond written
        [UInt8.ofNat (s.buf / 2 ^ 10), UInt8.ofNat (s.buf / 2 ^ 2)] s.len size (by simp only [List.length_cons, List.length_nil]; omega)
      rw [set, ok_bind]
      exact ⟨_, rfl, by simp, ⟨written', size', rfl⟩, fun failed => absurd rfl failed⟩
  · split
    · split
      · exact ⟨_, rfl, by simp, ⟨written, size, rfl⟩, fun _ => rfl⟩
      · obtain ⟨written', size', set⟩ := @setField_inside outSize beyond written
          [UInt8.ofNat (s.buf / 2 ^ 4)] s.len size (by simp only [List.length_cons, List.length_nil]; omega)
        rw [set, ok_bind]
        exact ⟨_, rfl, by simp, ⟨written', size', rfl⟩, fun failed => absurd rfl failed⟩
    · exact ⟨_, rfl, by simp, ⟨written, size, rfl⟩, fun failed => absurd rfl failed⟩

theorem Base64Decoded.Fine.congr {bad other : Prop} {r : Base64Decoded} (fine : r.Fine outSize beyond bad) (same : bad ↔ other) :
    r.Fine outSize beyond other :=
  ⟨fine.invalid.trans same, fine.inside, fine.sizeKept⟩

/-- A character: the decoder goes on behind it, or the capacity is exceeded. -/
theorem Base64Decoder.Behind.char (behind : s.Behind outSize beyond chars) {c : UInt8} (member : c ∈ base64Chars) (rest : Bytes) :
    (∃ s' : Base64Decoder, s'.Behind outSize beyond (chars + 1) ∧
      decodeLoop charSigned outSize (c :: rest) s = decodeLoop charSigned outSize rest s') ∨
    (outSize < 3 * ((chars + 1) / 4) ∧
      decodeLoop charSigned outSize (c :: rest) s = .ok ⟨.bufTooSmall, s.out, outSize⟩) := by
  obtain ⟨v, small, value⟩ := @base64Value_char charSigned c member
  rw [decodeLoop_char value small]
  have next := behind.next
  obtain ⟨iter, len, outPos, fits, written, size, out⟩ := behind
  split
  · rename_i full
    split
    · exact .inr ⟨by omega, rfl⟩
    · rename_i room
      left
      generalize (s.buf <<< 6 ||| v) % 2 ^ 32 = buf
      obtain ⟨written', size', set⟩ := @setField_inside outSize beyond written
        [UInt8.ofNat (buf / 2 ^ 16), UInt8.ofNat (buf / 2 ^ 8), UInt8.ofNat buf] s.len size
        (by simp only [List.length_cons, List.length_nil]; omega)
      refine ⟨⟨0, 0, s.len + 3, written' ++ beyond, s.outPos + 3⟩, ⟨?_, ?_, ?_, ?_, written', size', rfl⟩, ?_⟩
      · dsimp only
        omega
      · dsimp only
        omega
      · dsimp only
        omega
      · dsimp only
        omega
      · rw [out, outPos, set]
        rfl
  · rename_i more
    exact .inl ⟨_, next more _, rfl⟩

theorem decodeLoop_fine (input : Bytes) (behind : s.Behind outSize beyond chars)
    (small : charSigned = true → ∀ c, ReachesBehind outSize chars input c → c < 0x80) :
    ∃ r, decodeLoop charSigned outSize input s = .ok r ∧
      r.Fine outSize beyond (∃ c, Base64Bad c ∧ ReachesBehind outSize chars input c) := by
  induction input generalizing s chars with
  | nil =>
      obtain ⟨r, ended, fine⟩ := decodeEnd_fine behind
      exact ⟨r, ended, fine.congr ⟨False.elim, fun ⟨c, _, reaches⟩ => not_reachesBehind_nil reaches⟩⟩
  | cons b rest ih =>
      by_cases plain : Base64Plain b
      · have reaches (c : UInt8) (other : ¬ Base64Plain c) := @reachesBehind_cons_iff outSize chars rest b c plain other
        have small' (signed : charSigned = true) (c : UInt8)
            (reached : ReachesBehind outSize (if b ∈ base64Chars then chars + 1 else chars) rest c) : c < 0x80 := by
          by_cases plainByte : Base64Plain c
          · exact plainByte.small
          · exact small signed c ((reaches c plainByte).mpr reached)
        have same : (∃ c, Base64Bad c ∧ ReachesBehind outSize (if b ∈ base64Chars then chars + 1 else chars) rest c) ↔
            ∃ c, Base64Bad c ∧ ReachesBehind outSize chars (b :: rest) c :=
          exists_congr fun c => and_congr_right fun bad => (reaches c bad.1).symm
        by_cases member : b ∈ base64Chars
        · rw [if_pos member] at small' same
          rcases behind.char member rest with ⟨s', next, ran⟩ | ⟨exceeded, ran⟩
          · obtain ⟨r, decoded, fine⟩ := ih next small'
            exact ⟨r, ran.trans decoded, fine.congr same⟩
          · refine ⟨_, ran, ⟨?_, behind.out, fun _ => rfl⟩⟩
            rw [← same]
            exact ⟨nofun, fun ⟨c, _, reached⟩ => absurd reached (not_reachesBehind_of_lt exceeded)⟩
        · obtain rfl := plain.resolve_left member
          rw [if_neg member] at small' same
          obtain ⟨r, decoded, fine⟩ := ih behind small'
          exact ⟨r, (decodeLoop_newline base64Value_newline).trans decoded, fine.congr same⟩
      · have reaches (c : UInt8) := @reachesBehind_cons_self_iff outSize chars rest b c plain
        have fits : 3 * (chars / 4) ≤ outSize := behind.len ▸ behind.fits
        by_cases equals : b = 0x3d
        · rw [equals, decodeLoop_equals base64Value_equals]
          obtain ⟨r, ended, fine⟩ := decodeEnd_fine behind
          refine ⟨r, ended, fine.congr ⟨False.elim, ?_⟩⟩
          rintro ⟨c, bad, reached⟩
          rw [← equals] at reached
          exact bad.2 (((reaches c).mp reached).1.trans equals)
        · have bad : Base64Bad b := ⟨plain, equals⟩
          have reached : ReachesBehind outSize chars (b :: rest) b := (reaches b).mpr ⟨rfl, fits⟩
          rw [decodeLoop_invalid (base64Value_bad bad fun signed => small signed b reached)]
          exact ⟨_, rfl, ⟨fun _ => ⟨b, bad, reached⟩, fun _ => rfl⟩, behind.out, fun _ => rfl⟩

theorem decodeLoop_negative {input : Bytes} {c : UInt8} (behind : s.Behind outSize beyond chars)
    (reached : ReachesBehind outSize chars input c) (negative : 0x80 ≤ c) :
    decodeLoop true outSize input s = .error .outOfBounds := by
  have other := (base64Bad_of_negative negative).1
  induction input generalizing s chars with
  | nil => exact absurd reached not_reachesBehind_nil
  | cons b rest ih =>
      by_cases plain : Base64Plain b
      · rw [reachesBehind_cons_iff plain other] at reached
        by_cases member : b ∈ base64Chars
        · rw [if_pos member] at reached
          rcases @Base64Decoder.Behind.char true outSize chars beyond s behind b member rest with ⟨s', next, ran⟩ | ⟨exceeded, ran⟩
          · exact ran.trans (ih next reached)
          · exact absurd reached (not_reachesBehind_of_lt exceeded)
        · obtain rfl := plain.resolve_left member
          rw [if_neg member] at reached
          exact (decodeLoop_newline base64Value_newline).trans (ih behind reached)
      · obtain ⟨rfl, -⟩ := (reachesBehind_cons_self_iff plain).mp reached
        rw [decodeLoop, base64Value_negative negative]
        rfl

end Loop

theorem reachesBehind_zero {outSize : Nat} {input : Bytes} {c : UInt8} :
    ReachesBehind outSize 0 input c ↔ Base64Reaches outSize input c := by
  simp only [ReachesBehind, Base64Reaches, Nat.zero_add]

theorem base64DecoderSafe_iff (charSigned : Bool) (input out beyond : Bytes) : Base64DecoderSafe charSigned input out beyond ↔
    (charSigned = true → ∀ c, Base64Reaches out.length input c → c < 0x80) := by
  have behind : Base64Decoder.Behind out.length beyond 0 ⟨0, 0, 0, out ++ beyond, 0⟩ :=
    ⟨rfl, rfl, rfl, Nat.zero_le _, out, rfl, rfl⟩
  simp only [← reachesBehind_zero]
  constructor
  · rintro ⟨⟨r, decoded⟩, -, -, -⟩ rfl c reached
    by_contra negative
    have fault := decodeLoop_negative behind reached (UInt8.not_lt.mp negative)
    cases decoded.symm.trans fault
  · intro small
    obtain ⟨r, decoded, fine⟩ := decodeLoop_fine input behind small
    have only (r' : Base64Decoded) (decoded' : chiakiBase64Decode charSigned input (out ++ beyond) out.length = .ok r') :
        r' = r := Except.ok.inj (decoded'.symm.trans decoded)
    refine ⟨⟨r, decoded⟩, ?_, ?_, ?_⟩
    · intro r' decoded'
      simp only [only r' decoded', fine.invalid, reachesBehind_zero]
    · intro r' decoded'
      exact only r' decoded' ▸ fine.inside
    · intro r' decoded'
      exact only r' decoded' ▸ fine.sizeKept

/-- One byte of a text in UTF-8. -/
theorem not_base64DecoderSafe : ¬ Base64DecoderSafe true [0xc3] [] [] := by
  rintro ⟨⟨r, decoded⟩, -, -, -⟩
  have fault : chiakiBase64Decode true [0xc3] [] 0 = .error .outOfBounds := by decide +kernel
  cases decoded.symm.trans fault

end Chiaki
