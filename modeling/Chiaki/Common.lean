import Mathlib.Tactic

/-!
# Shared types

The error codes of `common.h`, and the ways a C program can go wrong that the models report
instead of returning.
-/

namespace Chiaki

inductive ErrorCode where
  | success | unknown | parseAddr | thread | memory | overflow | network | connectionRefused
  | hostDown | hostUnreach | disconnected | invalidData | bufTooSmall | mutexLocked | canceled
  | timeout | invalidResponse | invalidMac | uninitialized | fecFailed | versionMismatch | httpNonok
  deriving DecidableEq, Repr

/-- An `assert` that fails, an access outside the memory a pointer was given, a signed sum that leaves
its type, a shift by a negative number of bits or by the whole width, a division by zero, or a loop that does
not end. -/
inductive Fault where
  | assertion
  | outOfBounds
  | nullPointer
  | signedOverflow
  | shift
  | divisionByZero
  | endless
  deriving DecidableEq, Repr

abbrev Checked := Except Fault

/-- `assert(cond)`. -/
def assert (cond : Bool) : Checked Unit := if cond then .ok () else .error .assertion

@[simp] theorem assert_true : assert true = .ok () := rfl
@[simp] theorem assert_false : assert false = .error .assertion := rfl

abbrev Bytes := List UInt8

/-- The characters of a string literal. -/
def text (s : String) : Bytes := s.toList.map fun c => UInt8.ofNat c.toNat

/-- Follow a pointer that may be `NULL`. -/
def deref {α : Type} : Option α → Checked α
  | some a => .ok a
  | none => .error .nullPointer

/-- The result of an access that may leave its block. -/
def inBounds {α : Type} : Option α → Checked α
  | some a => .ok a
  | none => .error .outOfBounds

@[simp] theorem deref_some {α : Type} (a : α) : deref (some a) = .ok a := rfl
@[simp] theorem inBounds_some {α : Type} (a : α) : inBounds (some a) = .ok a := rfl

theorem ok_bind {α β : Type} (a : α) (f : α → Checked β) : (Except.ok a >>= f) = f a := rfl

theorem bind_eq_ok {α β : Type} {x : Checked α} {f : α → Checked β} {b : β}
    (h : (x >>= f) = .ok b) : ∃ a, x = .ok a ∧ f a = .ok b := by
  cases x with
  | error e => cases h
  | ok a => exact ⟨a, rfl, h⟩

/-- A difference of `uint32_t`. -/
def sub32 (a b : Nat) : Nat := (a + 2 ^ 32 - b) % 2 ^ 32

theorem sub32_eq {a b : Nat} (small : a < 2 ^ 32) (le : b ≤ a) : sub32 a b = a - b := by
  unfold sub32
  omega

/-- Two bytes in network order. -/
def ntohs (hi lo : UInt8) : Nat := hi.toNat * 256 + lo.toNat

end Chiaki
