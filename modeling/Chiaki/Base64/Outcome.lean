import Chiaki.Base64.DecodeSafety

/-!
# How decoding ends

What `chiaki_base64_decode` returns, for an output whose size need not be the capacity that is passed.
-/

namespace Chiaki
open Memory

instance (c : UInt8) : Decidable (Base64Plain c) := inferInstanceAs (Decidable (_ ∨ _))

/-- Behind the loop, with all characters decoded. -/
def base64Ending (room outSize chars : Nat) : Checked ErrorCode :=
  if outSize < 3 * chars / 4 then .ok .bufTooSmall
  else if room < 3 * chars / 4 then .error .outOfBounds
  else .ok .success

/-- Behind the characters, of which all groups fit. -/
def base64AtStop (charSigned : Bool) (room outSize chars : Nat) : Option UInt8 → Checked ErrorCode
  | none => base64Ending room outSize chars
  | some c =>
      if c = 0x3d then base64Ending room outSize chars
      else if charSigned ∧ 0x80 ≤ c then .error .outOfBounds
      else .ok .invalidData

/-- The result for some characters before a stop, with this room in the output. -/
def base64Outcome (charSigned : Bool) (room outSize chars : Nat) (stop : Option UInt8) : Checked ErrorCode :=
  if min room outSize < 3 * (chars / 4) then
    -- in the first group that does not fit
    if outSize < 3 * (min room outSize / 3 + 1) then .ok .bufTooSmall else .error .outOfBounds
  else base64AtStop charSigned room outSize chars stop

section Front
variable {c : UInt8} (rest : Bytes)

end Front

/-! ## The loop -/

/-- Behind some characters, with the whole groups in the output. -/
structure Base64Decoder.Progress (room outSize chars : Nat) (s : Base64Decoder) : Prop where
  iter : s.iter = chars % 4
  len : s.len = 3 * (chars / 4)
  outPos : s.outPos = s.len
  capacity : s.len ≤ outSize
  inside : s.len ≤ room
  out : s.out.length = room

theorem setField_outside {buf data : Bytes} {pos : Nat} (outside : buf.length < pos + data.length) :
    setField buf pos data = .error .outOfBounds := by
  rw [setField, write, if_neg (not_le.mpr outside)]
  rfl

section Loop
variable {charSigned : Bool} {room outSize chars : Nat} {s : Base64Decoder}

theorem base64Outcome_of_lt {more : Nat} {stop : Option UInt8} (capacity : 3 * (chars / 4) ≤ outSize)
    (inside : 3 * (chars / 4) ≤ room) (full : (chars + 1) % 4 = 0) (exceeded : min room outSize < 3 * (chars / 4) + 3) :
    base64Outcome charSigned room outSize (more + (chars + 1)) stop =
      if outSize < 3 * (chars / 4) + 3 then .ok .bufTooSmall else .error .outOfBounds := by
  have group : 3 * (min room outSize / 3 + 1) = 3 * (chars / 4) + 3 := by omega
  rw [base64Outcome, if_pos (by omega), group]

theorem Base64Decoder.Progress.char (progress : s.Progress room outSize chars) {c : UInt8} (member : c ∈ base64Chars)
    (rest : Bytes) :
    (∃ s' : Base64Decoder, s'.Progress room outSize (chars + 1) ∧
      decodeLoop charSigned outSize (c :: rest) s = decodeLoop charSigned outSize rest s') ∨
    ∀ more stop, (decodeLoop charSigned outSize (c :: rest) s).map Base64Decoded.err =
      base64Outcome charSigned room outSize (more + (chars + 1)) stop := by
  obtain ⟨v, small, value⟩ := @base64Value_char charSigned c member
  rw [decodeLoop_char value small]
  obtain ⟨iter, len, outPos, capacity, inside, out⟩ := progress
  rw [len] at capacity inside
  split
  · rename_i full
    have whole : (chars + 1) % 4 = 0 := by omega
    generalize (s.buf <<< 6 ||| v) % 2 ^ 32 = buf
    split
    · rename_i exceeded
      right
      intro more stop
      rw [base64Outcome_of_lt capacity inside whole (by omega), if_pos (by omega)]
      rfl
    · rename_i fits
      by_cases outside : room < s.len + 3
      · right
        intro more stop
        rw [base64Outcome_of_lt capacity inside whole (by omega), if_neg (by omega), outPos,
          setField_outside (by rw [out]; exact outside)]
        rfl
      · left
        obtain ⟨written, set, -, length⟩ := @setField_ok s.out
          [UInt8.ofNat (buf / 2 ^ 16), UInt8.ofNat (buf / 2 ^ 8), UInt8.ofNat buf] s.len
          (by rw [out]; exact not_lt.mp outside)
        refine ⟨⟨0, 0, s.len + 3, written, s.outPos + 3⟩, ⟨?_, ?_, ?_, ?_, ?_, length.trans out⟩, ?_⟩
        · dsimp only
          omega
        · dsimp only
          omega
        · dsimp only
          omega
        · dsimp only
          omega
        · dsimp only
          omega
        · rw [outPos, set]
          rfl
  · rename_i more
    left
    refine ⟨{ s with iter := s.iter + 1, buf := (s.buf <<< 6 ||| v) % 2 ^ 32 }, ⟨?_, ?_, outPos, ?_, ?_, out⟩, rfl⟩
    · dsimp only
      omega
    · dsimp only
      omega
    · dsimp only
      omega
    · dsimp only
      omega

end Loop

section Texts
variable {charSigned : Bool} {input out : Bytes} {outSize : Nat}

end Texts

end Chiaki
