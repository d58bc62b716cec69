import Chiaki.Base64.Encode

/-!
# The decoder for base64

`chiaki_base64_decode`. Whether a plain `char` has a sign depends on the platform; where it has one, a byte from 0x80 on
is far behind the table.
-/

namespace Chiaki
open Memory

def base64Whitespace : Nat := 64
def base64Equals : Nat := 65
def base64Invalid : Nat := 66

/-- `d`. -/
def base64Values : List Nat := [
  66, 66, 66, 66, 66, 66, 66, 66, 66, 66, 64, 66, 66, 66, 66, 66, 66, 66, 66, 66, 66, 66, 66, 66, 66,
  66, 66, 66, 66, 66, 66, 66, 66, 66, 66, 66, 66, 66, 66, 66, 66, 66, 66, 62, 66, 66, 66, 63, 52, 53,
  54, 55, 56, 57, 58, 59, 60, 61, 66, 66, 66, 65, 66, 66, 66, 0, 1, 2, 3, 4, 5, 6, 7, 8, 9,
  10, 11, 12, 13, 14, 15, 16, 17, 18, 19, 20, 21, 22, 23, 24, 25, 66, 66, 66, 66, 66, 66, 26, 27, 28,
  29, 30, 31, 32, 33, 34, 35, 36, 37, 38, 39, 40, 41, 42, 43, 44, 45, 46, 47, 48, 49, 50, 51, 66, 66,
  66, 66, 66, 66, 66, 66, 66, 66, 66, 66, 66, 66, 66, 66, 66, 66, 66, 66, 66, 66, 66, 66, 66, 66, 66,
  66, 66, 66, 66, 66, 66, 66, 66, 66, 66, 66, 66, 66, 66, 66, 66, 66, 66, 66, 66, 66, 66, 66, 66, 66,
  66, 66, 66, 66, 66, 66, 66, 66, 66, 66, 66, 66, 66, 66, 66, 66, 66, 66, 66, 66, 66, 66, 66, 66, 66,
  66, 66, 66, 66, 66, 66, 66, 66, 66, 66, 66, 66, 66, 66, 66, 66, 66, 66, 66, 66, 66, 66, 66, 66, 66,
  66, 66, 66, 66, 66, 66, 66, 66, 66, 66, 66, 66, 66, 66, 66, 66, 66, 66, 66, 66, 66, 66, 66, 66, 66,
  66, 66, 66, 66, 66, 66]

/-- `(size_t)(*in)`. -/
def charIndex (charSigned : Bool) (c : UInt8) : Nat :=
  if charSigned ∧ 0x80 ≤ c then 2 ^ 64 - 2 ^ 8 + c.toNat else c.toNat

def base64Value (charSigned : Bool) (c : UInt8) : Checked Nat := inBounds base64Values[charIndex charSigned c]?

structure Base64Decoder where
  iter : Nat
  buf : Nat
  len : Nat
  out : Bytes
  outPos : Nat

/-- The error code, the memory of the output and `*out_size`. -/
structure Base64Decoded where
  err : ErrorCode
  out : Bytes
  outSize : Nat
  deriving DecidableEq, Repr

/-- Behind the loop. -/
def decodeEnd (outSize : Nat) (s : Base64Decoder) : Checked Base64Decoded :=
  if s.iter = 3 then
    if outSize < s.len + 2 then pure ⟨.bufTooSmall, s.out, outSize⟩
    else do
      let out ← setField s.out s.outPos [UInt8.ofNat (s.buf / 2 ^ 10), UInt8.ofNat (s.buf / 2 ^ 2)]
      pure ⟨.success, out, s.len + 2⟩
  else if s.iter = 2 then
    if outSize < s.len + 1 then pure ⟨.bufTooSmall, s.out, outSize⟩
    else do
      let out ← setField s.out s.outPos [UInt8.ofNat (s.buf / 2 ^ 4)]
      pure ⟨.success, out, s.len + 1⟩
  else pure ⟨.success, s.out, s.len⟩

def decodeLoop (charSigned : Bool) (outSize : Nat) : Bytes → Base64Decoder → Checked Base64Decoded
  | [], s => decodeEnd outSize s
  | c :: rest, s => do
      let c ← base64Value charSigned c
      if c = base64Whitespace then decodeLoop charSigned outSize rest s
      else if c = base64Invalid then pure ⟨.invalidData, s.out, outSize⟩
      else if c = base64Equals then decodeEnd outSize s
      else
        let buf := (s.buf <<< 6 ||| c) % 2 ^ 32
        if s.iter + 1 = 4 then
          if outSize < s.len + 3 then pure ⟨.bufTooSmall, s.out, outSize⟩
          else do
            let out ← setField s.out s.outPos [UInt8.ofNat (buf / 2 ^ 16), UInt8.ofNat (buf / 2 ^ 8), UInt8.ofNat buf]
            decodeLoop charSigned outSize rest ⟨0, 0, s.len + 3, out, s.outPos + 3⟩
        else decodeLoop charSigned outSize rest { s with iter := s.iter + 1, buf := buf }

/-- `chiaki_base64_decode`, on the memory from `out` on. -/
def chiakiBase64Decode (charSigned : Bool) (input out : Bytes) (outSize : Nat) : Checked Base64Decoded :=
  decodeLoop charSigned outSize input ⟨0, 0, 0, out, 0⟩

/-! ## The table -/

section Table
variable {charSigned : Bool} {outSize : Nat}

theorem charIndex_small {c : UInt8} (small : charSigned = true → c < 0x80) : charIndex charSigned c = c.toNat := by
  rw [charIndex, if_neg]
  rintro ⟨signed, negative⟩
  exact absurd (small signed) (UInt8.not_lt.mpr negative)

theorem base64Value_negative {c : UInt8} (negative : 0x80 ≤ c) : base64Value true c = .error .outOfBounds := by
  have far : base64Values.length ≤ charIndex true c := by
    rw [charIndex, if_pos ⟨rfl, negative⟩]
    have table : base64Values.length = 256 := by decide +kernel
    omega
  rw [base64Value, List.getElem?_eq_none far]
  rfl

/-- The characters by their codes. -/
def base64Codes : List Nat := List.range' 65 26 ++ List.range' 97 26 ++ List.range' 48 10 ++ [43, 47]

theorem base64Chars_codes : base64Chars.map UInt8.toNat = base64Codes := by
  decide +kernel

theorem mem_base64Codes_iff (c : UInt8) : c.toNat ∈ base64Codes ↔ c ∈ base64Chars := by
  rw [← base64Chars_codes]
  exact List.mem_map_of_injective fun _ _ same => UInt8.toNat_inj.mp same

theorem base64Codes_idxOf (c : UInt8) : base64Codes.idxOf c.toNat = base64Chars.idxOf c := by
  rw [← base64Chars_codes]
  induction base64Chars with
  | nil => rfl
  | cons b chars ih =>
      have same : (b.toNat == c.toNat) = (b == c) := by
        rw [Bool.eq_iff_iff, beq_iff_eq, beq_iff_eq]
        exact UInt8.toNat_inj
      rw [List.map_cons, List.idxOf_cons, List.idxOf_cons, ih, same]

theorem base64Values_get (c : UInt8) : base64Values[c.toNat]? =
    some (if c ∈ base64Chars then base64Chars.idxOf c else if c = 0x0a then base64Whitespace
      else if c = 0x3d then base64Equals else base64Invalid) := by
  have table : base64Values = (List.range 256).map fun n =>
      if n ∈ base64Codes then base64Codes.idxOf n
      else if n = 0x0a then base64Whitespace
      else if n = 0x3d then base64Equals else base64Invalid := by decide +kernel
  have newline : c.toNat = 0x0a ↔ c = 0x0a := UInt8.toNat_inj (b := 0x0a)
  have equals : c.toNat = 0x3d ↔ c = 0x3d := UInt8.toNat_inj (b := 0x3d)
  rw [table, List.getElem?_map, List.getElem?_range c.toNat_lt, Option.map_some]
  simp only [mem_base64Codes_iff, base64Codes_idxOf, newline, equals]

theorem base64Chars_small {c : UInt8} (member : c ∈ base64Chars) : c < 0x80 := by
  have all : ∀ n ∈ base64Codes, n < 0x80 := by decide
  exact all c.toNat ((mem_base64Codes_iff c).mpr member)

theorem base64Chars_idxOf {c : UInt8} (member : c ∈ base64Chars) : base64Chars.idxOf c < 2 ^ 6 :=
  (List.idxOf_lt_length_of_mem member).trans_eq rfl

theorem base64Value_base64Char (n : Nat) : base64Value charSigned (base64Char n) = .ok (n % 2 ^ 6) := by
  have distinct : base64Chars.Nodup := by
    have codes : base64Codes.Nodup := by decide
    exact List.Nodup.of_map UInt8.toNat (base64Chars_codes ▸ codes)
  have count : base64Chars.length = 2 ^ 6 := rfl
  have bound : n % 2 ^ 6 < base64Chars.length := by
    rw [count]
    exact Nat.mod_lt n (by decide)
  have member := base64Char_mem n
  rw [base64Value, charIndex_small fun _ => base64Chars_small member, base64Values_get, if_pos member, base64Char,
    List.getD_eq_getElem _ _ bound, distinct.idxOf_getElem]
  rfl

end Table

/-! ## One character -/

section Characters
variable {charSigned : Bool} {outSize v : Nat} {c : UInt8} {rest : Bytes} {s : Base64Decoder}

theorem decodeLoop_newline (value : base64Value charSigned c = .ok base64Whitespace) :
    decodeLoop charSigned outSize (c :: rest) s = decodeLoop charSigned outSize rest s := by
  rw [decodeLoop, value, ok_bind, if_pos rfl]

theorem decodeLoop_equals (value : base64Value charSigned c = .ok base64Equals) :
    decodeLoop charSigned outSize (c :: rest) s = decodeEnd outSize s := by
  rw [decodeLoop, value, ok_bind, if_neg (by decide), if_neg (by decide), if_pos rfl]

theorem decodeLoop_invalid (value : base64Value charSigned c = .ok base64Invalid) :
    decodeLoop charSigned outSize (c :: rest) s = .ok ⟨.invalidData, s.out, outSize⟩ := by
  rw [decodeLoop, value, ok_bind, if_neg (by decide), if_pos rfl]
  rfl

theorem decodeLoop_char (value : base64Value charSigned c = .ok v) (small : v < 2 ^ 6) :
    decodeLoop charSigned outSize (c :: rest) s =
      if s.iter + 1 = 4 then
        if outSize < s.len + 3 then .ok ⟨.bufTooSmall, s.out, outSize⟩
        else (setField s.out s.outPos [UInt8.ofNat ((s.buf <<< 6 ||| v) % 2 ^ 32 / 2 ^ 16),
            UInt8.ofNat ((s.buf <<< 6 ||| v) % 2 ^ 32 / 2 ^ 8), UInt8.ofNat ((s.buf <<< 6 ||| v) % 2 ^ 32)]).bind fun out =>
          decodeLoop charSigned outSize rest ⟨0, 0, s.len + 3, out, s.outPos + 3⟩
      else decodeLoop charSigned outSize rest { s with iter := s.iter + 1, buf := (s.buf <<< 6 ||| v) % 2 ^ 32 } := by
  rw [decodeLoop, value, ok_bind, if_neg (by rw [base64Whitespace]; omega), if_neg (by rw [base64Invalid]; omega),
    if_neg (by rw [base64Equals]; omega)]
  rfl

end Characters

/-! ## The round trip -/

section RoundTrip
variable {charSigned : Bool} {outSize : Nat}

theorem shifted_eq {buf v : Nat} (narrow : buf < 2 ^ 18) (small : v < 2 ^ 6) : (buf <<< 6 ||| v) % 2 ^ 32 = buf * 2 ^ 6 + v := by
  rw [← Nat.shiftLeft_add_eq_or_of_lt small, Nat.shiftLeft_eq]
  omega

theorem decodeLoop_base64Char {rest out : Bytes} {iter buf len outPos : Nat} (more : iter < 3) (narrow : buf < 2 ^ (6 * iter)) (n : Nat) :
    decodeLoop charSigned outSize (base64Char n :: rest) ⟨iter, buf, len, out, outPos⟩ =
      decodeLoop charSigned outSize rest ⟨iter + 1, buf * 2 ^ 6 + n % 2 ^ 6, len, out, outPos⟩ := by
  have small := Nat.mod_lt n (show 0 < 2 ^ 6 by decide)
  have wide : buf < 2 ^ 18 := narrow.trans_le (Nat.pow_le_pow_right (by decide) (by omega))
  rw [decodeLoop_char (base64Value_base64Char n) small, if_neg (by dsimp only; omega), shifted_eq wide small]

theorem decodeLoop_group {rest done old : Bytes} (room : 3 ≤ old.length) (fits : done.length + 3 ≤ outSize) (a b c : UInt8) :
    let n := a.toNat * 2 ^ 16 + b.toNat * 2 ^ 8 + c.toNat
    decodeLoop charSigned outSize
        ([base64Char (n / 2 ^ 18), base64Char (n / 2 ^ 12), base64Char (n / 2 ^ 6), base64Char n] ++ rest)
        ⟨0, 0, done.length, done ++ old, done.length⟩ =
      decodeLoop charSigned outSize rest
        ⟨0, 0, done.length + 3, done ++ [a, b, c] ++ old.drop 3, done.length + 3⟩ := by
  intro n
  have ha := a.toNat_lt
  have hb := b.toNat_lt
  have hc := c.toNat_lt
  have small := Nat.mod_lt n (show 0 < 2 ^ 6 by decide)
  have all : (((0 * 2 ^ 6 + n / 2 ^ 18 % 2 ^ 6) * 2 ^ 6 + n / 2 ^ 12 % 2 ^ 6) * 2 ^ 6 + n / 2 ^ 6 % 2 ^ 6) * 2 ^ 6 + n % 2 ^ 6 = n := by omega
  have bytes : [UInt8.ofNat (n / 2 ^ 16), UInt8.ofNat (n / 2 ^ 8), UInt8.ofNat n] = [a, b, c] := by
    simp only [List.cons.injEq, and_true, ← UInt8.toNat_inj, UInt8.toNat_ofNat']
    omega
  simp only [List.cons_append, List.nil_append]
  rw [decodeLoop_base64Char (by decide) (by decide), decodeLoop_base64Char (by decide) (by omega),
    decodeLoop_base64Char (by decide) (by omega), decodeLoop_char (base64Value_base64Char n) small, if_pos rfl,
    if_neg (by dsimp only; omega), shifted_eq (by dsimp only; omega) small]
  dsimp only
  rw [all, bytes, setField_behind (show [a, b, c].length ≤ old.length from room)]
  rfl

theorem decodeEnd_three {done old : Bytes} {buf : Nat} (room : 2 ≤ old.length) (fits : done.length + 2 ≤ outSize) {a b : UInt8}
    (value : buf = a.toNat * 2 ^ 10 + b.toNat * 2 ^ 2) :
    decodeEnd outSize ⟨3, buf, done.length, done ++ old, done.length⟩ =
      .ok ⟨.success, done ++ [a, b] ++ old.drop 2, done.length + 2⟩ := by
  have ha := a.toNat_lt
  have hb := b.toNat_lt
  have bytes : [UInt8.ofNat (buf / 2 ^ 10), UInt8.ofNat (buf / 2 ^ 2)] = [a, b] := by
    simp only [List.cons.injEq, and_true, ← UInt8.toNat_inj, UInt8.toNat_ofNat']
    omega
  rw [decodeEnd, if_pos rfl, if_neg (by dsimp only; omega), bytes, setField_behind (show [a, b].length ≤ old.length from room)]
  rfl

theorem decodeEnd_two {done old : Bytes} {buf : Nat} (room : 1 ≤ old.length) (fits : done.length + 1 ≤ outSize) {a : UInt8}
    (value : buf = a.toNat * 2 ^ 4) :
    decodeEnd outSize ⟨2, buf, done.length, done ++ old, done.length⟩ =
      .ok ⟨.success, done ++ [a] ++ old.drop 1, done.length + 1⟩ := by
  have ha := a.toNat_lt
  have bytes : [UInt8.ofNat (buf / 2 ^ 4)] = [a] := by
    simp only [List.cons.injEq, and_true, ← UInt8.toNat_inj, UInt8.toNat_ofNat']
    omega
  rw [decodeEnd, if_neg (by dsimp only; omega), if_pos rfl, if_neg (by dsimp only; omega), bytes,
    setField_behind (show [a].length ≤ old.length from room)]
  rfl

theorem base64Value_equals : base64Value charSigned 0x3d = .ok base64Equals := by
  cases charSigned <;> decide

theorem decodeLoop_base64Text (input : Bytes) {done old : Bytes} (room : input.length ≤ old.length)
    (fits : done.length + input.length ≤ outSize) :
    decodeLoop charSigned outSize (base64Text input) ⟨0, 0, done.length, done ++ old, done.length⟩ =
      .ok ⟨.success, done ++ input ++ old.drop input.length, done.length + input.length⟩ := by
  fun_induction base64Text input generalizing done old with
  | case1 => simp [decodeLoop, decodeEnd, pure, Except.pure]
  | case2 a =>
      have ha := a.toNat_lt
      rw [decodeLoop_base64Char (by decide) (by decide), decodeLoop_base64Char (by decide) (by omega),
        decodeLoop_equals base64Value_equals, decodeEnd_two (a := a) room fits (by omega)]
      rfl
  | case3 a b =>
      have ha := a.toNat_lt
      have hb := b.toNat_lt
      rw [decodeLoop_base64Char (by decide) (by decide), decodeLoop_base64Char (by decide) (by omega),
        decodeLoop_base64Char (by decide) (by omega), decodeLoop_equals base64Value_equals,
        decodeEnd_three (a := a) (b := b) room fits (by omega)]
      rfl
  | case4 a b c rest n =>
      rename_i ih
      simp only [List.length_cons] at room fits
      have later := @ih (done ++ [a, b, c]) (old.drop 3) (by rw [List.length_drop]; omega)
        (by rw [List.length_append]; simp only [List.length_cons, List.length_nil]; omega)
      rw [List.length_append, show [a, b, c].length = 3 from rfl] at later
      rw [decodeLoop_group (by omega) (by omega), later, List.drop_drop, List.append_assoc done, List.length_cons,
        List.length_cons, List.length_cons]
      simp only [List.cons_append, List.nil_append, Nat.add_assoc, Nat.add_comm 3 rest.length]

theorem chiakiBase64Decode_base64Text {input out : Bytes} (room : input.length ≤ out.length) (fits : input.length ≤ outSize) :
    chiakiBase64Decode charSigned (base64Text input) out outSize =
      .ok ⟨.success, input ++ out.drop input.length, input.length⟩ := by
  have ran := @decodeLoop_base64Text charSigned outSize input [] out room (by rw [List.length_nil]; omega)
  rw [List.nil_append, List.length_nil, List.nil_append, Nat.zero_add] at ran
  exact ran

end RoundTrip

/-- The text is encoded, and decoded as what it was. -/
theorem base64_roundTrip (charSigned : Bool) (input out outBeyond decoded decodedBeyond : Bytes)
    (room : 4 * ((input.length + 2) / 3) + 1 ≤ out.length) (fits : input.length ≤ decoded.length) :
    ∃ encoded rest, encoded.length = 4 * ((input.length + 2) / 3) ∧ (encoded ++ [0] ++ rest).length = out.length ∧
      chiakiBase64Encode input (out ++ outBeyond) out.length = .ok (.success, encoded ++ [0] ++ rest ++ outBeyond) ∧
      chiakiBase64Decode charSigned encoded (decoded ++ decodedBeyond) decoded.length =
        .ok ⟨.success, input ++ (decoded ++ decodedBeyond).drop input.length, input.length⟩ := by
  have size := length_base64Text input
  refine ⟨base64Text input, out.drop ((base64Text input).length + 1), size, ?_, ?_, ?_⟩
  · simp only [List.length_append, List.length_singleton, List.length_drop]
    omega
  · rw [chiakiBase64Encode_ok (by omega) (by rw [List.length_append]; omega), List.drop_append_of_le_length (by omega)]
    simp only [List.append_assoc]
  · exact chiakiBase64Decode_base64Text (by rw [List.length_append]; omega) fits

theorem base64_roundTrip_text : ∃ encoded rest : Bytes, encoded.length = 4 ∧ (encoded ++ [0] ++ rest).length = 5 ∧
    chiakiBase64Encode [0xff, 0] [0, 0, 0, 0, 0] 5 = .ok (.success, encoded ++ [0] ++ rest ++ []) ∧
    chiakiBase64Decode true encoded [1, 2, 3] 2 = .ok ⟨.success, [0xff, 0, 3], 2⟩ :=
  base64_roundTrip true [0xff, 0] [0, 0, 0, 0, 0] [] [1, 2] [3] (by decide) (by decide)

end Chiaki
