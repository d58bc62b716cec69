import Mathlib.Data.List.GetD
import Chiaki.Takion.Packet

/-!
# The encoder for base64

`chiaki_base64_encode`, which checks the size of the output before each character.
-/

namespace Chiaki
open Memory

def base64Chars : Bytes := text "ABCDEFGHIJKLMNOPQRSTUVWXYZabcdefghijklmnopqrstuvwxyz0123456789+/"

def base64Char (n : Nat) : UInt8 := base64Chars.getD (n % 2 ^ 6) 0

/-- The characters of `chiaki_base64_encode`. -/
def base64Text : Bytes → Bytes
  | [] => []
  | [a] =>
      let n := a.toNat * 2 ^ 16
      [base64Char (n / 2 ^ 18), base64Char (n / 2 ^ 12), 0x3d, 0x3d]
  | [a, b] =>
      let n := a.toNat * 2 ^ 16 + b.toNat * 2 ^ 8
      [base64Char (n / 2 ^ 18), base64Char (n / 2 ^ 12), base64Char (n / 2 ^ 6), 0x3d]
  | a :: b :: c :: rest =>
      let n := a.toNat * 2 ^ 16 + b.toNat * 2 ^ 8 + c.toNat
      [base64Char (n / 2 ^ 18), base64Char (n / 2 ^ 12), base64Char (n / 2 ^ 6), base64Char n] ++ base64Text rest

/-- `chiaki_base64_encode`: what it writes to the output. -/
def base64Encode (input : Bytes) (outSize : Nat) : Except ErrorCode Bytes :=
  if outSize ≤ (base64Text input).length then .error .bufTooSmall else .ok (base64Text input ++ [0])

/-! ## The loop -/

structure Base64Output where
  out : Bytes
  resultIndex : Nat

/-- `out[result_index++] = c` for some characters, with the check before each. -/
def putChars (outSize : Nat) : Bytes → Base64Output → Checked (ErrorCode × Base64Output)
  | [], o => pure (.success, o)
  | c :: cs, o =>
      if outSize ≤ o.resultIndex then pure (.bufTooSmall, o)
      else do
        let out ← setField o.out o.resultIndex [c]
        putChars outSize cs ⟨out, o.resultIndex + 1⟩

/-- The loop of `chiaki_base64_encode`, over three bytes at a time. -/
def encodeLoop (outSize : Nat) : Bytes → Base64Output → Checked (ErrorCode × Base64Output)
  | [], o => pure (.success, o)
  | [a], o =>
      let n := a.toNat * 2 ^ 16
      putChars outSize [base64Char (n / 2 ^ 18), base64Char (n / 2 ^ 12)] o
  | [a, b], o =>
      let n := a.toNat * 2 ^ 16 + b.toNat * 2 ^ 8
      putChars outSize [base64Char (n / 2 ^ 18), base64Char (n / 2 ^ 12), base64Char (n / 2 ^ 6)] o
  | a :: b :: c :: rest, o => do
      let n := a.toNat * 2 ^ 16 + b.toNat * 2 ^ 8 + c.toNat
      let (err, o) ← putChars outSize
        [base64Char (n / 2 ^ 18), base64Char (n / 2 ^ 12), base64Char (n / 2 ^ 6), base64Char n] o
      if err ≠ .success then pure (err, o) else encodeLoop outSize rest o

/-- The padding and the terminator, behind the loop. -/
def encodeEnd (outSize padCount : Nat) (o : Base64Output) : Checked (ErrorCode × Bytes) := do
  let (err, o) ← putChars outSize (if 0 < padCount then List.replicate (3 - padCount) 0x3d else []) o
  if err ≠ .success then pure (err, o.out)
  else if outSize ≤ o.resultIndex then pure (.bufTooSmall, o.out)
  else do
    let out ← setField o.out o.resultIndex [0]
    pure (.success, out)

/-- `chiaki_base64_encode`, on the memory from `out` on. -/
def chiakiBase64Encode (input out : Bytes) (outSize : Nat) : Checked (ErrorCode × Bytes) := do
  let padCount := input.length % 3
  let (err, o) ← encodeLoop outSize input ⟨out, 0⟩
  if err ≠ .success then pure (err, o.out) else encodeEnd outSize padCount o

/-! ## What is written -/

theorem length_base64Text (input : Bytes) : (base64Text input).length = 4 * ((input.length + 2) / 3) := by
  fun_induction base64Text input with
  | case1 => rfl
  | case2 => simp
  | case3 => simp
  | case4 a b c rest n ih =>
      rw [List.length_append, ih]
      simp only [List.length_cons, List.length_nil]
      omega

theorem base64Char_mem (n : Nat) : base64Char n ∈ base64Chars := by
  have count : base64Chars.length = 2 ^ 6 := by decide +kernel
  have bound : n % 2 ^ 6 < base64Chars.length := by
    rw [count]
    exact Nat.mod_lt _ (by decide)
  rw [base64Char, List.getD_eq_getElem _ _ bound]
  exact List.getElem_mem bound

theorem base64Text_chars (input : Bytes) : ∀ c ∈ base64Text input, c ∈ base64Chars ∨ c = 0x3d := by
  have char (n : Nat) : base64Char n ∈ base64Chars ∨ base64Char n = 0x3d := .inl (base64Char_mem n)
  fun_induction base64Text input with
  | case1 => exact nofun
  | case2 =>
      simp only [List.forall_mem_cons]
      exact ⟨char _, char _, .inr trivial, .inr trivial, nofun⟩
  | case3 =>
      simp only [List.forall_mem_cons]
      exact ⟨char _, char _, char _, .inr trivial, nofun⟩
  | case4 a b c rest n ih =>
      simp only [List.cons_append, List.nil_append, List.forall_mem_cons]
      exact ⟨char _, char _, char _, char _, ih⟩

section Output
variable {outSize : Nat}

theorem putChars_append (a b : Bytes) (o : Base64Output) :
    putChars outSize (a ++ b) o =
      (putChars outSize a o).bind fun r => if r.1 ≠ .success then .ok r else putChars outSize b r.2 := by
  induction a generalizing o with
  | nil => rfl
  | cons c a ih =>
      rw [List.cons_append, putChars, putChars]
      split
      · rfl
      · cases setField o.out o.resultIndex [c] with
        | error e => rfl
        | ok out => exact ih ⟨out, o.resultIndex + 1⟩

theorem putChars_ok {done old data : Bytes} (room : data.length ≤ old.length) (fits : done.length + data.length ≤ outSize) :
    putChars outSize data ⟨done ++ old, done.length⟩ =
      .ok (.success, ⟨done ++ data ++ old.drop data.length, done.length + data.length⟩) := by
  induction data generalizing done old with
  | nil => simp [putChars, pure, Except.pure]
  | cons c data ih =>
      rw [List.length_cons] at room fits
      have written : setField (done ++ old) done.length [c] = .ok (done ++ [c] ++ old.drop 1) :=
        setField_behind (by rw [List.length_singleton]; omega)
      have rest := @ih (done ++ [c]) (old.drop 1) (by rw [List.length_drop]; omega)
        (by rw [List.length_append, List.length_singleton]; omega)
      rw [List.length_append, List.length_singleton] at rest
      rw [putChars, if_neg (by dsimp only; omega), written, ok_bind, rest, List.drop_drop, List.append_assoc done,
        List.singleton_append, List.length_cons, Nat.add_comm 1, Nat.add_assoc, Nat.add_comm 1]

theorem putChars_small {done old data : Bytes} (inside : outSize ≤ (done ++ old).length) (begun : done.length ≤ outSize)
    (small : outSize < done.length + data.length) :
    ∃ o, putChars outSize data ⟨done ++ old, done.length⟩ = .ok (.bufTooSmall, o) := by
  induction data generalizing done old with
  | nil =>
      rw [List.length_nil] at small
      omega
  | cons c data ih =>
      rw [putChars]
      split
      · exact ⟨_, rfl⟩
      · rename_i further
        dsimp only at further
        rw [List.length_append] at inside
        rw [List.length_cons] at small
        have written : setField (done ++ old) done.length [c] = .ok (done ++ [c] ++ old.drop 1) :=
          setField_behind (by rw [List.length_singleton]; omega)
        obtain ⟨o, rest⟩ := @ih (done ++ [c]) (old.drop 1)
          (by rw [List.length_append, List.length_append, List.length_singleton, List.length_drop]; omega)
          (by rw [List.length_append, List.length_singleton]; omega)
          (by rw [List.length_append, List.length_singleton]; omega)
        rw [List.length_append, List.length_singleton] at rest
        exact ⟨o, by rw [written, ok_bind, rest]⟩

theorem putChars_base64Text (input rest : Bytes) (o : Base64Output) :
    putChars outSize (base64Text input ++ rest) o =
      (encodeLoop outSize input o).bind fun r => if r.1 ≠ .success then .ok r else
        putChars outSize ((if 0 < input.length % 3 then List.replicate (3 - input.length % 3) 0x3d else []) ++ rest) r.2 := by
  fun_induction base64Text input generalizing o with
  | case1 => rfl
  | case2 a n => exact putChars_append [_, _] _ o
  | case3 a b n => exact putChars_append [_, _, _] _ o
  | case4 a b c later n ih =>
      rw [List.append_assoc, putChars_append, encodeLoop]
      cases putChars outSize [base64Char (n / 2 ^ 18), base64Char (n / 2 ^ 12), base64Char (n / 2 ^ 6), base64Char n] o with
      | error e => rfl
      | ok r =>
          obtain ⟨err, o⟩ := r
          have size : (a :: b :: c :: later).length % 3 = later.length % 3 := by
            simp only [List.length_cons]
            omega
          rw [size]
          cases err with
          | success => exact ih o
          | _ => rfl

theorem encodeEnd_eq (padCount : Nat) (o : Base64Output) : encodeEnd outSize padCount o =
    (putChars outSize ((if 0 < padCount then List.replicate (3 - padCount) 0x3d else []) ++ [0]) o).map
      fun r => (r.1, r.2.out) := by
  rw [putChars_append, encodeEnd]
  cases putChars outSize (if 0 < padCount then List.replicate (3 - padCount) 0x3d else []) o with
  | error e => rfl
  | ok r =>
      obtain ⟨err, o⟩ := r
      cases err with
      | success =>
          change (if outSize ≤ o.resultIndex then _ else _) = (putChars outSize [0] o).map _
          rw [putChars]
          split
          · rfl
          · cases setField o.out o.resultIndex [0] <;> rfl
      | _ => rfl

theorem chiakiBase64Encode_eq (input out : Bytes) : chiakiBase64Encode input out outSize =
    (putChars outSize (base64Text input ++ [0]) ⟨out, 0⟩).map fun r => (r.1, r.2.out) := by
  rw [putChars_base64Text, chiakiBase64Encode]
  cases encodeLoop outSize input ⟨out, 0⟩ with
  | error e => rfl
  | ok r =>
      obtain ⟨err, o⟩ := r
      cases err with
      | success => exact encodeEnd_eq _ o
      | _ => rfl

theorem chiakiBase64Encode_ok {input out : Bytes} (room : (base64Text input).length < outSize) (inside : outSize ≤ out.length) :
    chiakiBase64Encode input out outSize =
      .ok (.success, base64Text input ++ [0] ++ out.drop ((base64Text input).length + 1)) := by
  have size : (base64Text input ++ [0]).length = (base64Text input).length + 1 := by rw [List.length_append, List.length_singleton]
  have written := @putChars_ok outSize [] out (base64Text input ++ [0]) (by omega) (by rw [List.length_nil, size]; omega)
  rw [List.nil_append, List.length_nil] at written
  rw [chiakiBase64Encode_eq, written, size]
  rfl

/-- The loop writes what `base64Encode` says, or finds the output too small. -/
theorem chiakiBase64Encode_base64Encode {input out : Bytes} (inside : outSize ≤ out.length) :
    ∃ err out', chiakiBase64Encode input out outSize = .ok (err, out') ∧
      match base64Encode input outSize with
      | .ok bytes => err = .success ∧ out' = bytes ++ out.drop bytes.length
      | .error e => err = e := by
  rw [base64Encode]
  by_cases small : outSize ≤ (base64Text input).length
  · rw [if_pos small]
    obtain ⟨o, failed⟩ := @putChars_small outSize [] out (base64Text input ++ [0]) inside (Nat.zero_le _)
      (by rw [List.length_nil, List.length_append, List.length_singleton]; omega)
    refine ⟨.bufTooSmall, o.out, ?_, rfl⟩
    rw [chiakiBase64Encode_eq]
    exact congrArg (Except.map _) failed
  · rw [if_neg small]
    refine ⟨.success, _, chiakiBase64Encode_ok (not_le.mp small) inside, rfl, ?_⟩
    rw [List.length_append, List.length_singleton]

end Output

end Chiaki
