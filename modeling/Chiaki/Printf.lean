import Mathlib.Data.Nat.Digits.Lemmas
import Chiaki.Takion.Packet

/-!
# Formatted text

`snprintf` with the conversions that are used, on the memory of a buffer.
-/

namespace Chiaki
open Memory

/-- A number as `printf` writes it. -/
def decimal (n : Nat) : Bytes :=
  if n = 0 then [0x30] else (Nat.digits 10 n).reverse.map fun d => UInt8.ofNat (0x30 + d)

/-- `%d`. -/
def signedDecimal (n : Int) : Bytes := if n < 0 then 0x2d :: decimal n.natAbs else decimal n.natAbs

/-- A part of a format: `%s`, `%d` or `%ld`, or what stands between them. -/
inductive Directive where
  | lit (s : String)
  | str
  | int
  | long

inductive PrintfArg where
  | str (s : Bytes)
  | int (n : Int)

/-- `sizeof` a format. -/
def formatSize (format : List Directive) : Nat :=
  (format.map fun
    | .lit s => (text s).length
    | .str => 2
    | .int => 2
    | .long => 3).sum + 1

def sprintf : List Directive → List PrintfArg → Bytes
  | .lit s :: format, args => text s ++ sprintf format args
  | .str :: format, .str s :: args => s ++ sprintf format args
  | .int :: format, .int n :: args => signedDecimal n ++ sprintf format args
  | .long :: format, .int n :: args => signedDecimal n ++ sprintf format args
  | _, _ => []

/-- The text that stands in a format. -/
def Directive.literal : Directive → Bytes
  | .lit s => text s
  | _ => []

def PrintfArg.written : PrintfArg → Bytes
  | .str s => s
  | .int n => signedDecimal n

/-- The arguments are those that the conversions want. -/
def accepts : List Directive → List PrintfArg → Bool
  | [], [] => true
  | .lit _ :: format, args => accepts format args
  | .str :: format, .str _ :: args => accepts format args
  | .int :: format, .int _ :: args => accepts format args
  | .long :: format, .int _ :: args => accepts format args
  | _, _ => false

/-- `snprintf` to a position of a buffer: the buffer, and the length of the whole text where it is an `int`. -/
def snprintf (buf : Bytes) (pos size : Nat) (s : Bytes) : Checked (Bytes × Int) := do
  let buf ← if size = 0 then pure buf else setField buf pos (s.take (size - 1) ++ [0])
  pure (buf, if s.length < 2 ^ 31 then s.length else -1)

/-- A string of C. -/
def cStr (bytes : Bytes) : Bytes := bytes.takeWhile (· ≠ 0)

/-- The string that a buffer starts with. -/
def bufString (buf : Bytes) : Checked Bytes := if 0 ∈ buf then .ok (cStr buf) else .error .outOfBounds

theorem length_decimal_le {n digits : Nat} (some_ : 0 < digits) (small : n < 10 ^ digits) : (decimal n).length ≤ digits := by
  rw [decimal]
  split
  · exact some_
  · rw [List.length_map, List.length_reverse]
    exact (Nat.digits_length_le_iff (by decide) n).mpr small

section Strings
variable {s rest : Bytes}

theorem cStr_append (string : 0 ∉ s) (rest : Bytes) : cStr (s ++ rest) = s ++ cStr rest := by
  have all : ∀ c ∈ s, decide (c ≠ 0) = true := by
    intro c member
    rw [decide_eq_true_eq]
    rintro rfl
    exact string member
  rw [cStr, List.takeWhile_append_of_pos all]
  rfl

theorem cStr_append_zero (string : 0 ∉ s) (rest : Bytes) : cStr (s ++ 0 :: rest) = s := by
  rw [cStr_append string, cStr, List.takeWhile_cons_of_neg (by simp), List.append_nil]

theorem bufString_append_zero (string : 0 ∉ s) (rest : Bytes) : bufString (s ++ 0 :: rest) = .ok s := by
  rw [bufString, if_pos (by simp), cStr_append_zero string]

end Strings

theorem length_of_snprintf {buf s buf' : Bytes} {pos size : Nat} {written : Int} (ran : snprintf buf pos size s = .ok (buf', written)) :
    buf'.length = buf.length := by
  rw [snprintf] at ran
  split at ran
  · obtain ⟨rfl, -⟩ := Prod.mk.inj (Except.ok.inj ran)
    rfl
  · obtain ⟨buf'', set, ran⟩ := bind_eq_ok ran
    obtain ⟨rfl, -⟩ := Prod.mk.inj (Except.ok.inj ran)
    exact length_of_write (write_of_setField set)

theorem decimal_digits (n : Nat) : ∀ c ∈ decimal n, 0x30 ≤ c ∧ c ≤ 0x39 := by
  have digit : ∀ d < 10, 0x30 ≤ UInt8.ofNat (0x30 + d) ∧ UInt8.ofNat (0x30 + d) ≤ 0x39 := by decide
  intro c member
  rw [decimal] at member
  split at member
  · obtain rfl := List.mem_singleton.mp member
    decide
  · obtain ⟨d, place, rfl⟩ := List.mem_map.mp member
    exact digit d (Nat.digits_lt_base (by decide) (List.mem_reverse.mp place))

theorem signedDecimal_chars (n : Int) : ∀ c ∈ signedDecimal n, c = 0x2d ∨ 0x30 ≤ c ∧ c ≤ 0x39 := by
  intro c member
  rw [signedDecimal] at member
  split at member
  · rcases List.mem_cons.mp member with rfl | digit
    · exact .inl rfl
    · exact .inr (decimal_digits _ c digit)
  · exact .inr (decimal_digits _ c member)

theorem zero_not_mem_signedDecimal (n : Int) : 0 ∉ signedDecimal n := by
  intro member
  rcases signedDecimal_chars n 0 member with minus | ⟨digit, -⟩
  · cases minus
  · exact absurd digit (by decide)

theorem length_signedDecimal_le {n : Int} {digits : Nat} (some_ : 0 < digits) (small : n.natAbs < 10 ^ digits) :
    (signedDecimal n).length ≤ digits + 1 := by
  have count := length_decimal_le some_ small
  rw [signedDecimal]
  split
  · rw [List.length_cons]
    omega
  · omega

theorem length_signedDecimal_natCast_le {n digits : Nat} (some_ : 0 < digits) (small : n < 10 ^ digits) :
    (signedDecimal (n : Int)).length ≤ digits := by
  rw [signedDecimal, if_neg (by omega), Int.natAbs_natCast]
  exact length_decimal_le some_ small

theorem length_sprintf {format : List Directive} {args : List PrintfArg} (matching : accepts format args = true) :
    (sprintf format args).length = (format.map (·.literal.length)).sum + (args.map (·.written.length)).sum := by
  fun_induction accepts format args with
  | case1 => rfl
  | case2 s format args ih =>
      rw [sprintf, List.length_append, ih matching]
      simp only [List.map_cons, List.sum_cons, Directive.literal]
      omega
  | case3 format s args ih =>
      rw [sprintf, List.length_append, ih matching]
      simp only [List.map_cons, List.sum_cons, Directive.literal, PrintfArg.written, List.length_nil]
      omega
  | case4 format n args ih =>
      rw [sprintf, List.length_append, ih matching]
      simp only [List.map_cons, List.sum_cons, Directive.literal, PrintfArg.written, List.length_nil]
      omega
  | case5 format n args ih =>
      rw [sprintf, List.length_append, ih matching]
      simp only [List.map_cons, List.sum_cons, Directive.literal, PrintfArg.written, List.length_nil]
      omega
  | case6 => cases matching

theorem zero_not_mem_sprintf {format : List Directive} {args : List PrintfArg} (literals : ∀ d ∈ format, 0 ∉ d.literal)
    (given : ∀ a ∈ args, 0 ∉ a.written) : 0 ∉ sprintf format args := by
  fun_induction sprintf format args with
  | case1 s format args ih =>
      obtain ⟨first, literals⟩ := List.forall_mem_cons.mp literals
      exact List.not_mem_append first (ih literals given)
  | case2 format s args ih =>
      obtain ⟨first, given⟩ := List.forall_mem_cons.mp given
      exact List.not_mem_append first (ih (List.forall_mem_cons.mp literals).2 given)
  | case3 format n args ih =>
      exact List.not_mem_append (zero_not_mem_signedDecimal n)
        (ih (List.forall_mem_cons.mp literals).2 (List.forall_mem_cons.mp given).2)
  | case4 format n args ih =>
      exact List.not_mem_append (zero_not_mem_signedDecimal n)
        (ih (List.forall_mem_cons.mp literals).2 (List.forall_mem_cons.mp given).2)
  | case5 => exact List.not_mem_nil

end Chiaki
