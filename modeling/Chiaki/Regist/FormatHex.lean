import Chiaki.Regist.Hex

/-!
# Bytes as text in hexadecimal

`format_hex` of `utils.h`, and what `parse_hex` makes of its digits. A nibble from ten on gets a character that is no
digit.
-/

namespace Chiaki

def nibbleChar (v : UInt8) : UInt8 :=
  if 0xf < v then 0x30
  else if v < 0xa then 0x30 + v
  else 0x61 + v

/-- The loop of `format_hex`. -/
def formatHexLoop : (i : Nat) → (buf hexBuf : Bytes) → Checked Bytes
  | _, [], hexBuf => pure hexBuf
  | i, v :: buf, hexBuf => do
      let hexBuf ← setField hexBuf (i * 2 + 0) [nibbleChar (v >>> 4)]
      let hexBuf ← setField hexBuf (i * 2 + 1) [nibbleChar (v &&& 0xf)]
      formatHexLoop (i + 1) buf hexBuf

/-- `format_hex`. -/
def formatHex (hexBuf buf : Bytes) : Checked (Bytes × ErrorCode) :=
  if hexBuf.length < buf.length * 2 + 1 then pure (hexBuf, .bufTooSmall)
  else do
    let hexBuf ← formatHexLoop 0 buf hexBuf
    let hexBuf ← setField hexBuf (buf.length * 2) [0]
    pure (hexBuf, .success)

def HexDigit (c : UInt8) : Prop := (0x30 ≤ c ∧ c ≤ 0x39) ∨ (0x61 ≤ c ∧ c ≤ 0x66) ∨ (0x41 ≤ c ∧ c ≤ 0x46)

instance (c : UInt8) : Decidable (HexDigit c) := inferInstanceAs (Decidable (_ ∨ _))

/-- The bytes are formatted as digits, from which `parse_hex` gets them back. It accepts digits in pairs that fit, and
nothing else. -/
structure HexRoundTrip (hexBuf bytes : Bytes) : Prop where
  formats : ∃ digits, formatHex hexBuf bytes =
      .ok (digits ++ [0] ++ hexBuf.drop (digits.length + 1), .success) ∧
    digits.length = 2 * bytes.length ∧ (∀ c ∈ digits, HexDigit c) ∧
    ∀ buf, bytes.length ≤ buf.length → parseHex buf digits = .ok (bytes ++ buf.drop bytes.length, .ok bytes.length)
  accepts : ∀ buf hex, (∃ buf' size, parseHex buf hex = .ok (buf', .ok size)) ↔
    hex.length % 2 = 0 ∧ hex.length / 2 ≤ buf.length ∧ ∀ c ∈ hex, HexDigit c

/-- Both nibbles are below ten. -/
def DecimalNibbles (v : UInt8) : Prop := v.toNat / 16 < 10 ∧ v.toNat % 16 < 10

instance (v : UInt8) : Decidable (DecimalNibbles v) := inferInstanceAs (Decidable (_ ∧ _))

/-! ## Nibbles -/

section Nibbles
variable {v : UInt8}

theorem toNat_high : (v >>> 4).toNat = v.toNat / 16 := by
  rw [UInt8.toNat_shiftRight]
  exact Nat.shiftRight_eq_div_pow v.toNat 4

theorem toNat_low : (v &&& 0xf).toNat = v.toNat % 16 := by
  rw [UInt8.toNat_and]
  exact Nat.and_two_pow_sub_one_eq_mod v.toNat 4

theorem nibbles_joined : (v >>> 4) <<< 4 ||| v &&& 0xf = v := by
  apply UInt8.toNat_inj.mp
  rw [UInt8.toNat_or, UInt8.toNat_shiftLeft, toNat_high, toNat_low, show (4 : UInt8).toNat % 8 = 4 from rfl,
    Nat.mod_eq_of_lt, ← Nat.shiftLeft_add_eq_or_of_lt (Nat.mod_lt _ (by decide)), Nat.shiftLeft_eq]
  · have := v.toNat_lt
    omega
  · have := v.toNat_lt
    rw [Nat.shiftLeft_eq]
    omega

theorem isSome_nibbleValue {c : UInt8} : (nibbleValue c).isSome = true ↔ HexDigit c := by
  unfold nibbleValue HexDigit
  split
  · simp [*]
  split
  · simp [*]
  split
  · simp [*]
  · simp [*]

theorem nibbleValue_nibbleChar (nibble : v.toNat < 16) :
    nibbleValue (nibbleChar v) = if v.toNat < 10 then some v else none := by
  have table : ∀ n < 16, nibbleValue (nibbleChar (UInt8.ofNat n)) = if n < 10 then some (UInt8.ofNat n) else none := by
    decide
  have here := table v.toNat nibble
  rwa [UInt8.ofNat_toNat] at here

theorem hexDigit_nibbleChar (nibble : v.toNat < 16) : HexDigit (nibbleChar v) ↔ v.toNat < 10 := by
  rw [← isSome_nibbleValue, nibbleValue_nibbleChar nibble]
  split
  · rename_i small
    simp [small]
  · rename_i large
    simp [large]

end Nibbles

/-! ## Formatting -/

/-- The characters that are written. -/
def hexText (bytes : Bytes) : Bytes := bytes.flatMap fun v : UInt8 => [nibbleChar (v >>> 4), nibbleChar (v &&& 0xf)]

theorem length_hexText (bytes : Bytes) : (hexText bytes).length = 2 * bytes.length := by
  induction bytes with
  | nil => rfl
  | cons v bytes ih =>
      rw [hexText, List.flatMap_cons, List.length_append, List.length_cons]
      rw [hexText] at ih
      rw [ih]
      simp only [List.length_cons, List.length_nil]
      omega

theorem formatHexLoop_eq {bytes done old : Bytes} {i : Nat} (here : done.length = i * 2)
    (room : 2 * bytes.length ≤ old.length) :
    formatHexLoop i bytes (done ++ old) = .ok (done ++ hexText bytes ++ old.drop (2 * bytes.length)) := by
  induction bytes generalizing done old i with
  | nil => simp [formatHexLoop, hexText, pure, Except.pure]
  | cons v bytes ih =>
      rw [List.length_cons] at room
      have next : (done ++ [nibbleChar (v >>> 4)] ++ [nibbleChar (v &&& 0xf)]).length = (i + 1) * 2 := by
        simp only [List.length_append, List.length_singleton, here]
        omega
      rw [formatHexLoop, Nat.add_zero, ← here, setField_behind (by simp only [List.length_singleton]; omega), ok_bind,
        show done.length + 1 = (done ++ [nibbleChar (v >>> 4)]).length by simp,
        setField_behind (by simp only [List.length_singleton, List.length_drop]; omega), ok_bind,
        ih next (by simp only [List.length_singleton, List.length_drop]; omega)]
      simp only [hexText, List.flatMap_cons, List.append_assoc, List.drop_drop, List.length_cons, List.length_nil,
        List.cons_append, List.nil_append, Nat.mul_succ]
      rw [Nat.zero_add, Nat.add_comm (1 + 1)]

theorem formatHex_eq {hexBuf bytes : Bytes} (room : 2 * bytes.length + 1 ≤ hexBuf.length) :
    formatHex hexBuf bytes =
      .ok (hexText bytes ++ [0] ++ hexBuf.drop ((hexText bytes).length + 1), .success) := by
  have loop := @formatHexLoop_eq bytes [] hexBuf 0 rfl (by omega)
  rw [List.nil_append, List.nil_append] at loop
  rw [formatHex, if_neg (by omega), loop, ok_bind, show bytes.length * 2 = (hexText bytes).length by
    rw [length_hexText]; omega, setField_behind (by simp only [List.length_singleton, List.length_drop]; omega), ok_bind,
    List.drop_drop, List.length_singleton, length_hexText]
  rfl

/-! ## Reading -/

theorem decodeHex_hexText {bytes : Bytes} (decimal : ∀ v ∈ bytes, DecimalNibbles v) :
    decodeHex (hexText bytes) = some bytes := by
  induction bytes with
  | nil => rfl
  | cons v bytes ih =>
      obtain ⟨first, rest⟩ := List.forall_mem_cons.mp decimal
      have high : nibbleValue (nibbleChar (v >>> 4)) = some (v >>> 4) := by
        rw [nibbleValue_nibbleChar (by rw [toNat_high]; have := v.toNat_lt; omega), if_pos (by rw [toNat_high]; exact first.1)]
      have low : nibbleValue (nibbleChar (v &&& 0xf)) = some (v &&& 0xf) := by
        rw [nibbleValue_nibbleChar (by rw [toNat_low]; omega), if_pos (by rw [toNat_low]; exact first.2)]
      rw [hexText, List.flatMap_cons, List.cons_append, List.cons_append, List.nil_append, decodeHex, high, low]
      change (decodeHex (hexText bytes)).map _ = _
      rw [ih rest, Option.map_some, nibbles_joined]

theorem isSome_decodeHex {hex : Bytes} :
    (decodeHex hex).isSome = true ↔ hex.length % 2 = 0 ∧ ∀ c ∈ hex, HexDigit c := by
  fun_induction decodeHex hex with
  | case1 => simp
  | case2 => simp
  | case3 h l hex high low isHigh isLow ih =>
      have first := isSome_nibbleValue.mp (by rw [isHigh]; rfl)
      have second := isSome_nibbleValue.mp (by rw [isLow]; rfl)
      simp only [Option.isSome_map, ih, List.length_cons, List.forall_mem_cons, first, second, true_and]
      constructor
      · rintro ⟨even, digits⟩
        exact ⟨by omega, digits⟩
      · rintro ⟨even, digits⟩
        exact ⟨by omega, digits⟩
  | case4 h l hex bad =>
      constructor
      · intro some_
        cases some_
      · rintro ⟨-, digits⟩
        obtain ⟨first, second, -⟩ := List.forall_mem_cons.mp digits |>.imp_right List.forall_mem_cons.mp
        obtain ⟨high, isHigh⟩ := Option.isSome_iff_exists.mp (isSome_nibbleValue.mpr first)
        obtain ⟨low, isLow⟩ := Option.isSome_iff_exists.mp (isSome_nibbleValue.mpr second)
        exact absurd isLow (bad high low isHigh)

theorem parseHex_accepts (buf hex : Bytes) : (∃ buf' size, parseHex buf hex = .ok (buf', .ok size)) ↔
    hex.length % 2 = 0 ∧ hex.length / 2 ≤ buf.length ∧ ∀ c ∈ hex, HexDigit c := by
  obtain ⟨buf', outcome, ran, -, told⟩ := parseHex_eq buf hex
  rw [ran]
  cases decoded : decodeHex hex with
  | none =>
      have none_ := (@isSome_decodeHex hex).not.mp (by rw [decoded]; simp)
      rw [decoded] at told
      obtain ⟨err, rfl⟩ := told
      constructor
      · rintro ⟨_, _, same⟩
        cases same
      · rintro ⟨even, -, digits⟩
        exact absurd ⟨even, digits⟩ none_
  | some bytes =>
      obtain ⟨even, digits⟩ := isSome_decodeHex.mp (by rw [decoded]; rfl)
      have size := length_of_decodeHex decoded
      rw [decoded, Option.filter_some] at told
      by_cases fits : bytes.length ≤ buf.length
      · rw [if_pos (by simpa using fits)] at told
        obtain ⟨rfl, -⟩ := told
        exact ⟨fun _ => ⟨even, by omega, digits⟩, fun _ => ⟨buf', bytes.length, rfl⟩⟩
      · rw [if_neg (by simpa using fits)] at told
        obtain ⟨err, rfl⟩ := told
        constructor
        · rintro ⟨_, _, same⟩
          cases same
        · rintro ⟨-, fits', -⟩
          omega

/-- The round trip works exactly for the bytes whose nibbles are below ten. -/
theorem hexRoundTrip_iff (hexBuf bytes : Bytes) (room : 2 * bytes.length + 1 ≤ hexBuf.length) :
    HexRoundTrip hexBuf bytes ↔ ∀ v ∈ bytes, DecimalNibbles v := by
  constructor
  · rintro ⟨⟨digits, formatted, size, areDigits, -⟩, -⟩ v member
    rw [formatHex_eq room] at formatted
    have same := congrArg Prod.fst (Except.ok.inj formatted)
    have front := congrArg (List.take (2 * bytes.length)) same
    dsimp only at front
    rw [List.append_assoc, List.append_assoc, List.take_left' (length_hexText bytes), List.take_left' size] at front
    rw [← front] at areDigits
    have high := areDigits (nibbleChar (v >>> 4)) (List.mem_flatMap.mpr ⟨v, member, by simp⟩)
    have low := areDigits (nibbleChar (v &&& 0xf)) (List.mem_flatMap.mpr ⟨v, member, by simp⟩)
    have bound := v.toNat_lt
    rw [hexDigit_nibbleChar (by rw [toNat_high]; omega), toNat_high] at high
    rw [hexDigit_nibbleChar (by rw [toNat_low]; omega), toNat_low] at low
    exact ⟨high, low⟩
  · intro decimal
    have decoded := decodeHex_hexText decimal
    refine ⟨⟨hexText bytes, formatHex_eq room, length_hexText bytes, ?_, fun buf fits => ?_⟩, parseHex_accepts⟩
    · exact (isSome_decodeHex.mp (by rw [decoded]; rfl)).2
    · obtain ⟨buf', outcome, ran, -, told⟩ := parseHex_eq buf (hexText bytes)
      rw [decoded, Option.filter_some, if_pos (by simpa using fits)] at told
      rw [ran, told.1, told.2]

theorem hexRoundTrip_decimal : HexRoundTrip (List.replicate 5 0xff) [0x12, 0x90] :=
  (hexRoundTrip_iff (List.replicate 5 0xff) [0x12, 0x90] (by decide)).mpr (by simp [DecimalNibbles])

/-- `0x0a` is formatted as `0k`. -/
theorem not_hexRoundTrip_ten : ¬ HexRoundTrip [0, 0, 0] [0x0a] := by
  rintro ⟨⟨digits, formatted, size, areDigits, -⟩, -⟩
  obtain ⟨high, low, rfl⟩ := List.length_eq_two.mp size
  have written : formatHex [0, 0, 0] [0x0a] = .ok ([0x30, 0x6b, 0], .success) := by decide
  rw [written] at formatted
  obtain ⟨-, same, -⟩ := List.cons.inj (congrArg Prod.fst (Except.ok.inj formatted)) |>.imp_right List.cons.inj
  have digit := areDigits low (by simp)
  rw [← same] at digit
  exact absurd digit (by decide)

end Chiaki
