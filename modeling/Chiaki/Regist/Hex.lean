import Chiaki.Takion.Packet

/-!
# Numbers in text

`parse_hex` of `utils.h`, and `strtoul` with a base that the text tells.
-/

namespace Chiaki
open Memory

def nibbleValue (c : UInt8) : Option UInt8 :=
  if 0x30 ≤ c ∧ c ≤ 0x39 then some (c - 0x30)
  else if 0x61 ≤ c ∧ c ≤ 0x66 then some (c - 0x61 + 0xa)
  else if 0x41 ≤ c ∧ c ≤ 0x46 then some (c - 0x41 + 0xa)
  else none

/-- `strtoul` with the base 0. -/
def strtoul (s : Bytes) : Nat :=
  let s := s.dropWhile fun c => c = 0x20 || (0x09 ≤ c && c ≤ 0x0d)
  let (negative, s) := match s with
    | 0x2d :: s => (true, s)
    | 0x2b :: s => (false, s)
    | s => (false, s)
  let (base, s) := match s with
    | 0x30 :: x :: d :: s =>
        if (x = 0x78 ∨ x = 0x58) ∧ (nibbleValue d).isSome then (16, d :: s) else (8, x :: d :: s)
    | 0x30 :: s => (8, s)
    | s => (10, s)
  let digits := (s.map fun c => (nibbleValue c).filter (·.toNat < base)).takeWhile (·.isSome)
  let n := digits.foldl (fun n d => n * base + (d.getD 0).toNat) 0
  if 2 ^ 64 ≤ n then 2 ^ 64 - 1 else if negative then (2 ^ 64 - n) % 2 ^ 64 else n

/-- The loop of `parse_hex`: the buffer, and if each digit was one. -/
def parseHexLoop : (i : Nat) → (hex buf : Bytes) → Checked (Bytes × Bool)
  | i, h :: l :: hex, buf =>
      match nibbleValue h, nibbleValue l with
      | some h, some l => do
          let buf ← setField buf i [h <<< 4 ||| l]
          parseHexLoop (i + 1) hex buf
      | _, _ => pure (buf, false)
  | _, _, buf => pure (buf, true)

/-- `parse_hex`: the buffer, and `*buf_size`. -/
def parseHex (buf hex : Bytes) : Checked (Bytes × Except ErrorCode Nat) :=
  if hex.length % 2 ≠ 0 then pure (buf, .error .invalidData)
  else if buf.length < hex.length / 2 then pure (buf, .error .bufTooSmall)
  else do
    let (buf, digits) ← parseHexLoop 0 hex buf
    if digits then pure (buf, .ok (hex.length / 2)) else pure (buf, .error .invalidData)

/-- The bytes that a text in hexadecimal means. -/
def decodeHex : Bytes → Option Bytes
  | [] => some []
  | [_] => none
  | h :: l :: hex =>
      match nibbleValue h, nibbleValue l with
      | some h, some l => (decodeHex hex).map ((h <<< 4 ||| l) :: ·)
      | _, _ => none

theorem length_of_decodeHex {hex bytes : Bytes} (decoded : decodeHex hex = some bytes) : hex.length = 2 * bytes.length := by
  fun_induction decodeHex hex generalizing bytes with
  | case1 =>
      obtain rfl := Option.some.inj decoded
      rfl
  | case2 => cases decoded
  | case3 h l hex high low isHigh isLow ih =>
      obtain ⟨rest, later, rfl⟩ := Option.map_eq_some_iff.mp decoded
      have size := ih later
      simp only [List.length_cons]
      omega
  | case4 => cases decoded

theorem parseHexLoop_eq {hex old : Bytes} (even : hex.length % 2 = 0) (room : hex.length / 2 ≤ old.length) (done : Bytes) :
    ∃ buf digits, parseHexLoop done.length hex (done ++ old) = .ok (buf, digits) ∧ buf.length = done.length + old.length ∧
      match decodeHex hex with
      | some bytes => digits = true ∧ buf = done ++ bytes ++ old.drop bytes.length
      | none => digits = false := by
  fun_induction decodeHex hex generalizing done old with
  | case1 =>
      refine ⟨done ++ old, true, rfl, by simp, rfl, ?_⟩
      simp
  | case2 => cases even
  | case3 h l hex high low isHigh isLow ih =>
      simp only [List.length_cons] at even room
      cases old with
      | nil => simp at room
      | cons b old =>
          have written : setField (done ++ b :: old) done.length [high <<< 4 ||| low] =
              .ok (done ++ [high <<< 4 ||| low] ++ old) :=
            congrArg inBounds (write_behind done (b :: old) [_] (by simp))
          rw [List.length_cons] at room
          obtain ⟨buf, digits, ran, size, outcome⟩ :=
            @ih old (by omega) (by omega) (done ++ [high <<< 4 ||| low])
          rw [List.length_append, List.length_singleton] at ran size
          refine ⟨buf, digits, ?_, by rw [size, List.length_cons]; omega, ?_⟩
          · rw [parseHexLoop, isHigh, isLow]
            dsimp only
            rw [written, ok_bind, ran]
          · cases decoded : decodeHex hex with
            | none =>
                rw [decoded] at outcome
                exact outcome
            | some bytes =>
                rw [decoded] at outcome
                simpa using outcome
  | case4 h l hex bad =>
      refine ⟨done ++ old, false, ?_, by simp, rfl⟩
      rw [parseHexLoop]
      split
      · rename_i high low isHigh isLow
        exact absurd isLow (bad high low isHigh)
      · rfl

theorem parseHex_eq (buf hex : Bytes) : ∃ buf' outcome, parseHex buf hex = .ok (buf', outcome) ∧ buf'.length = buf.length ∧
    match (decodeHex hex).filter (·.length ≤ buf.length) with
    | some bytes => outcome = .ok bytes.length ∧ buf' = bytes ++ buf.drop bytes.length
    | none => ∃ err, outcome = .error err := by
  rw [parseHex]
  cases decoded : decodeHex hex with
  | none =>
      split
      · exact ⟨_, _, rfl, rfl, _, rfl⟩
      split
      · exact ⟨_, _, rfl, rfl, _, rfl⟩
      rename_i odd small
      obtain ⟨buf', digits, ran, size, outcome⟩ := @parseHexLoop_eq hex buf (not_not.mp odd) (not_lt.mp small) []
      rw [decoded] at outcome
      obtain rfl : digits = false := outcome
      rw [List.length_nil, List.nil_append] at ran
      rw [ran]
      exact ⟨_, _, rfl, by simpa using size, _, rfl⟩
  | some bytes =>
      have size := length_of_decodeHex decoded
      rw [if_neg (by omega)]
      split
      · rename_i small
        rw [Option.filter_some, if_neg (by simp; omega)]
        exact ⟨_, _, rfl, rfl, _, rfl⟩
      rename_i room
      obtain ⟨buf', digits, ran, kept, outcome⟩ := @parseHexLoop_eq hex buf (by omega) (not_lt.mp room) []
      rw [decoded] at outcome
      obtain ⟨rfl, written⟩ := outcome
      rw [List.length_nil, List.nil_append] at ran
      rw [Option.filter_some, if_pos (by simp; omega), ran]
      refine ⟨_, _, rfl, by simpa using kept, ?_, by simpa using written⟩
      rw [size, Nat.mul_div_cancel_left _ (by decide)]

theorem parseHex_full (buf hex : Bytes) : ∃ buf' outcome, parseHex buf hex = .ok (buf', outcome) ∧ buf'.length = buf.length ∧
    match (decodeHex hex).filter (·.length = buf.length) with
    | some bytes => outcome = .ok buf'.length ∧ buf' = bytes
    | none => outcome ≠ .ok buf'.length := by
  obtain ⟨buf', outcome, ran, length, told⟩ := parseHex_eq buf hex
  refine ⟨buf', outcome, ran, length, ?_⟩
  cases decoded : decodeHex hex with
  | none =>
      rw [decoded] at told
      obtain ⟨err, rfl⟩ := told
      simp
  | some bytes =>
      rw [decoded, Option.filter_some] at told
      rw [Option.filter_some, length]
      by_cases full : bytes.length = buf.length
      · rw [if_pos (by simpa using full.le)] at told
        obtain ⟨rfl, rfl⟩ := told
        rw [if_pos (by simpa using full), full]
        simp
      · rw [if_neg (by simpa using full)]
        split at told
        · rename_i got
          split at got
          · obtain rfl := Option.some.inj got
            rw [told.1]
            simpa using full
          · cases got
        · obtain ⟨err, rfl⟩ := told
          simp

end Chiaki
