import Mathlib.Tactic
import Mathlib.Data.Nat.Digits.Lemmas

/-!
# Numbers of a fixed number of bytes, the lowest first
-/

namespace LittleEndian

def value (bytes : List UInt8) : Nat := Nat.ofDigits 256 (bytes.map UInt8.toNat)

def ofNat : (len n : Nat) → List UInt8
  | 0, _ => []
  | len + 1, n => UInt8.ofNat n :: ofNat len (n / 256)

@[simp] theorem value_nil : value [] = 0 := rfl

@[simp] theorem value_cons (b : UInt8) (rest : List UInt8) :
    value (b :: rest) = b.toNat + 256 * value rest := by
  simp [value, Nat.ofDigits_cons]

theorem value_lt (bytes : List UInt8) : value bytes < 256 ^ bytes.length := by
  have bound := @Nat.ofDigits_lt_base_pow_length 256 (bytes.map UInt8.toNat) (by decide) (by
    simp only [List.mem_map]
    rintro _ ⟨b, -, rfl⟩
    exact b.toNat_lt)
  simpa [value] using bound

@[simp] theorem length_ofNat (len n : Nat) : (ofNat len n).length = len := by
  induction len generalizing n with
  | zero => rfl
  | succ len ih => simp [ofNat, ih]

theorem value_ofNat (len n : Nat) : value (ofNat len n) = n % 256 ^ len := by
  induction len generalizing n with
  | zero => simp [ofNat, Nat.mod_one]
  | succ len ih =>
      have lowest : (UInt8.ofNat n).toNat = n % 256 := UInt8.toNat_ofNat'
      rw [ofNat, value_cons, ih, lowest, pow_succ', Nat.mod_mul]

theorem eq_of_value {a b : List UInt8} (lengths : a.length = b.length) (values : value a = value b) :
    a = b := by
  induction a generalizing b with
  | nil => simpa using lengths.symm
  | cons x a ih =>
      cases b with
      | nil => simp at lengths
      | cons y b =>
          simp only [value_cons] at values
          have hx := x.toNat_lt
          have hy := y.toNat_lt
          have first : x.toNat = y.toNat := by omega
          rw [UInt8.toNat_inj.mp first, ih (by simpa using lengths) (by omega)]

end LittleEndian
