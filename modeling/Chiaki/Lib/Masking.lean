import Mathlib.Tactic

/-!
# Masking with a stream

Each item of a list is combined with the element of a stream at its position.
-/

namespace Masking

variable {β κ : Type*} (combine : β → κ → β) (stream : Nat → κ)

def mask : (pos : Nat) → List β → List β
  | _, [] => []
  | pos, b :: rest => combine b (stream pos) :: mask (pos + 1) rest

@[simp] theorem mask_nil (pos : Nat) : mask combine stream pos [] = [] := rfl

@[simp] theorem mask_cons (pos : Nat) (b : β) (rest : List β) :
    mask combine stream pos (b :: rest) = combine b (stream pos) :: mask combine stream (pos + 1) rest := rfl

@[simp] theorem length_mask (pos : Nat) (buf : List β) : (mask combine stream pos buf).length = buf.length := by
  induction buf generalizing pos with
  | nil => rfl
  | cons b rest ih => simp [ih]

theorem getElem?_mask (pos : Nat) (buf : List β) (j : Nat) :
    (mask combine stream pos buf)[j]? = buf[j]?.map fun b => combine b (stream (pos + j)) := by
  induction buf generalizing pos j with
  | nil => rfl
  | cons b rest ih =>
      cases j with
      | zero => rfl
      | succ j => simp [ih, Nat.add_assoc, Nat.add_comm 1 j]

/-- The elements of the stream may stand in a list. -/
theorem zipWith_cancel (undoes : ∀ b k, combine (combine b k) k = b) {a : List β} {keys : List κ}
    (short : a.length ≤ keys.length) : List.zipWith combine (List.zipWith combine a keys) keys = a := by
  induction a generalizing keys with
  | nil => rfl
  | cons x a ih =>
      cases keys with
      | nil => cases short
      | cons y keys =>
          rw [List.zipWith_cons_cons, List.zipWith_cons_cons, undoes, ih (Nat.le_of_succ_le_succ short)]

theorem xor_undoes (b k : UInt8) : b ^^^ k ^^^ k = b := by
  rw [UInt8.xor_assoc, UInt8.xor_self, UInt8.xor_zero]

theorem mask_append (pos : Nat) (a b : List β) :
    mask combine stream pos (a ++ b) = mask combine stream pos a ++ mask combine stream (pos + a.length) b := by
  induction a generalizing pos with
  | nil => rfl
  | cons x a ih => simp [ih, Nat.add_assoc, Nat.add_comm 1 a.length]

theorem mask_mask (cancels : ∀ b k, combine (combine b k) k = b) (pos : Nat) (buf : List β) :
    mask combine stream pos (mask combine stream pos buf) = buf := by
  induction buf generalizing pos with
  | nil => rfl
  | cons b rest ih => simp [ih, cancels]

theorem mask_congr {pos pos' : Nat} {buf : List β} (same : ∀ j < buf.length, stream (pos + j) = stream (pos' + j)) :
    mask combine stream pos buf = mask combine stream pos' buf := by
  apply List.ext_getElem?
  intro j
  rw [getElem?_mask, getElem?_mask]
  by_cases inside : j < buf.length
  · rw [same j inside]
  · rw [List.getElem?_eq_none (Nat.not_lt.mp inside)]
    rfl

end Masking
