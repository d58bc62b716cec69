import Mathlib.Tactic
import Mathlib.Data.List.GetD

/-!
# Rows of bits

Bits are numbered from the first byte on, the highest of each byte first. A number in a row of bits has
its highest bit first, too.
-/

namespace BitString

def bit (data : List UInt8) (k : Nat) : Bool := (data.getD (k / 8) 0).toNat.testBit (7 - k % 8)

/-- The number that `n` bits from `pos` on stand for. -/
def value (b : Nat → Bool) (pos : Nat) : (n : Nat) → Nat
  | 0 => 0
  | n + 1 => 2 * value b pos n + (b (pos + n)).toNat

variable {b b' : Nat → Bool} {pos m n : Nat}

/-! ## Values -/

theorem value_eq_value {pos' : Nat} (same : ∀ k < n, b (pos + k) = b' (pos' + k)) :
    value b pos n = value b' pos' n := by
  induction n with
  | zero => rfl
  | succ n ih => rw [value, value, ih fun k bound => same k (by omega), same n (by omega)]

theorem value_congr (same : ∀ k, pos ≤ k → k < pos + n → b k = b' k) : value b pos n = value b' pos n :=
  value_eq_value fun k bound => same (pos + k) (by omega) (by omega)

theorem value_lt (b : Nat → Bool) (pos n : Nat) : value b pos n < 2 ^ n := by
  induction n with
  | zero => exact Nat.one_pos
  | succ n ih =>
      have last := (b (pos + n)).toNat_lt
      rw [value, pow_succ]
      omega

theorem value_add : value b pos (m + n) = value b pos m * 2 ^ n + value b (pos + m) n := by
  induction n with
  | zero => simp [value]
  | succ n ih =>
      rw [← Nat.add_assoc, value, ih, value, pow_succ, Nat.add_assoc pos]
      ring

theorem value_one : value b pos 1 = (b pos).toNat := by simp [value]

theorem testBit_value (j : Nat) : (value b pos n).testBit j = (decide (j < n) && b (pos + (n - 1 - j))) := by
  induction n generalizing j with
  | zero => simp [value]
  | succ n ih =>
      cases j with
      | zero => cases h : b (pos + n) <;> simp [value, h]
      | succ j =>
          rw [value, Nat.testBit_succ, show (2 * value b pos n + (b (pos + n)).toNat) / 2 = value b pos n by
            have last := (b (pos + n)).toNat_lt
            omega, ih]
          rw [show n + 1 - 1 - (j + 1) = n - 1 - j by omega]
          simp

theorem value_eq_zero (zero : ∀ k, pos ≤ k → k < pos + n → b k = false) : value b pos n = 0 := by
  induction n with
  | zero => rfl
  | succ n ih =>
      rw [value, ih fun k low high => zero k low (by omega), zero (pos + n) (by omega) (by omega)]
      rfl

theorem value_mod (long : n ≤ m) : value b pos m % 2 ^ n = value b (pos + (m - n)) n := by
  obtain ⟨d, rfl⟩ := Nat.exists_eq_add_of_le' long
  rw [value_add, Nat.add_sub_cancel, Nat.mul_add_mod_self_right, Nat.mod_eq_of_lt (value_lt _ _ _)]

/-! ## Bytes -/

theorem bit_of_length_le {data : List UInt8} {k : Nat} (outside : 8 * data.length ≤ k) : bit data k = false := by
  rw [bit, List.getD_eq_default _ _ (by omega)]
  simp

theorem bit_append {data rest : List UInt8} {k : Nat} :
    bit (data ++ rest) k = if k < 8 * data.length then bit data k else bit rest (k - 8 * data.length) := by
  split
  · rw [bit, bit, List.getD_append _ _ _ _ (by omega)]
  · rw [bit, bit, List.getD_append_right _ _ _ _ (by omega)]
    congr 2
    · congr 1
      omega
    · omega

theorem bit_drop {data : List UInt8} {n k : Nat} : bit (data.drop n) k = bit data (8 * n + k) := by
  rw [bit, bit, List.getD_eq_getElem?_getD, List.getD_eq_getElem?_getD, List.getElem?_drop,
    show (8 * n + k) / 8 = n + k / 8 by omega, show (8 * n + k) % 8 = k % 8 by omega]

theorem bit_take {data : List UInt8} {n k : Nat} (inside : k < 8 * n) : bit (data.take n) k = bit data k := by
  rw [bit, bit, List.getD_eq_getElem?_getD, List.getD_eq_getElem?_getD, List.getElem?_take_of_lt (by omega)]

theorem bit_middle {front data rest : List UInt8} {k : Nat} : bit (front ++ data ++ rest) k =
    if 8 * front.length ≤ k ∧ k < 8 * (front.length + data.length) then bit data (k - 8 * front.length)
    else if k < 8 * front.length then bit front k else bit rest (k - 8 * (front.length + data.length)) := by
  rw [bit_append, bit_append, List.length_append]
  by_cases low : k < 8 * front.length
  · rw [if_pos (by omega), if_pos low, if_neg (by omega), if_pos low]
  · by_cases high : k < 8 * (front.length + data.length)
    · rw [if_pos high, if_neg low, if_pos (by omega)]
    · rw [if_neg high, if_neg (by omega), if_neg low]

theorem value_take_drop (data : List UInt8) (offset n : Nat) :
    value (bit ((data.drop offset).take n)) 0 (8 * n) = value (bit data) (8 * offset) (8 * n) := by
  apply value_eq_value
  intro k bound
  rw [Nat.zero_add, bit_take bound, bit_drop]

theorem value_byte (data : List UInt8) (k : Nat) : value (bit data) (8 * k) 8 = (data.getD k 0).toNat := by
  apply Nat.eq_of_testBit_eq
  intro j
  rw [testBit_value]
  by_cases bound : j < 8
  · rw [decide_eq_true bound, Bool.true_and, bit, show (8 * k + (8 - 1 - j)) / 8 = k by omega,
      show 7 - (8 * k + (8 - 1 - j)) % 8 = j by omega]
  · rw [decide_eq_false bound, Bool.false_and, Nat.testBit_lt_two_pow]
    calc (data.getD k 0).toNat < 2 ^ 8 := (data.getD k 0).toNat_lt
      _ ≤ 2 ^ j := Nat.pow_le_pow_right (by decide) (by omega)

/-! ## Windows -/

/-- The top of a word holds the bits from `pos` up to `limit`, the rest of it is zero. -/
def Window {w : Nat} (b : Nat → Bool) (pos limit : Nat) (x : BitVec w) : Prop :=
  ∀ i, i < w → x.getMsbD i = (decide (pos + i < limit) && b (pos + i))

section Windows
variable {w limit : Nat} {x : BitVec w}

theorem Window.shiftLeft (h : Window b pos limit x) (long : limit ≤ pos + w) (n : Nat) :
    Window b (pos + n) limit (x <<< n) := by
  intro i bound
  rw [BitVec.getMsbD_shiftLeft, show pos + n + i = pos + (i + n) by omega]
  by_cases inside : i + n < w
  · exact h (i + n) inside
  · rw [BitVec.getMsbD_of_ge _ _ (by omega), decide_eq_false (by omega), Bool.false_and]

theorem Window.append (h : Window b pos limit x) (low : pos ≤ limit) (room : limit - pos + n ≤ w) :
    Window b pos (limit + n) (x ||| BitVec.ofNat w (value b limit n) <<< (w - n - (limit - pos))) := by
  intro i bound
  rw [BitVec.getMsbD_or, h i bound, BitVec.getMsbD_shiftLeft, BitVec.getMsbD_eq_getLsbD, BitVec.getLsbD_ofNat,
    testBit_value]
  by_cases old : pos + i < limit
  · rw [decide_eq_true old, decide_eq_true (show pos + i < limit + n by omega)]
    by_cases inside : i + (w - n - (limit - pos)) < w
    · rw [decide_eq_false (show ¬ w - 1 - (i + (w - n - (limit - pos))) < n by omega)]
      simp
    · simp [inside]
  · rw [decide_eq_false old, Bool.false_and, Bool.false_or]
    by_cases new : pos + i < limit + n
    · rw [decide_eq_true new, decide_eq_true (show i + (w - n - (limit - pos)) < w by omega),
        decide_eq_true (show w - 1 - (i + (w - n - (limit - pos))) < w by omega),
        decide_eq_true (show w - 1 - (i + (w - n - (limit - pos))) < n by omega),
        show limit + (n - 1 - (w - 1 - (i + (w - n - (limit - pos))))) = pos + i by omega]
      simp
    · rw [decide_eq_false new, decide_eq_false (show ¬ i + (w - n - (limit - pos)) < w by omega)]
      simp

theorem Window.toNat_shiftRight (h : Window b pos limit x) (short : n ≤ w)
    (known : pos + n ≤ limit ∨ ∀ k, limit ≤ k → b k = false) : (x >>> (w - n)).toNat = value b pos n := by
  apply Nat.eq_of_testBit_eq
  intro j
  rw [BitVec.testBit_toNat, BitVec.getLsbD_ushiftRight, testBit_value, BitVec.getLsbD_eq_getMsbD]
  by_cases bound : j < n
  · rw [decide_eq_true bound, decide_eq_true (show w - n + j < w by omega), Bool.true_and, Bool.true_and,
      show w - 1 - (w - n + j) = n - 1 - j by omega, h _ (by omega)]
    rcases known with inside | beyond
    · rw [decide_eq_true (by omega), Bool.true_and]
    · by_cases inside : pos + (n - 1 - j) < limit
      · rw [decide_eq_true inside, Bool.true_and]
      · rw [decide_eq_false inside, beyond _ (by omega)]
        rfl
  · rw [decide_eq_false bound, decide_eq_false (show ¬ w - n + j < w by omega)]
    rfl

theorem Window.congr {pos' : Nat} (h : Window b pos limit x)
    (same : ∀ k, pos ≤ k → k < limit → b k = b' k) (at_ : pos' = pos) : Window b' pos' limit x := by
  subst at_
  intro i bound
  rw [h i bound]
  by_cases inside : pos' + i < limit
  · rw [same _ (by omega) inside]
  · rw [decide_eq_false inside]
    rfl

end Windows

/-! ## Exp-Golomb codes -/

/-- A code of this value from `pos` to `next` with at most `longest` leading zeros. -/
def Code (longest : Nat) (b : Nat → Bool) (pos value next : Nat) : Prop :=
  ∃ zeros ≤ longest, (∀ k < zeros, b (pos + k) = false) ∧ b (pos + zeros) = true ∧
    value = 2 ^ zeros - 1 + BitString.value b (pos + zeros + 1) zeros ∧ next = pos + (2 * zeros + 1)

theorem Code.lt {longest value next : Nat} (h : Code longest b pos value next) : pos < next := by
  obtain ⟨zeros, -, -, -, -, rfl⟩ := h
  omega

theorem Code.congr {longest value next : Nat} (h : Code longest b pos value next)
    (same : ∀ k, pos ≤ k → k < next → b k = b' k) : Code longest b' pos value next := by
  obtain ⟨zeros, short, blank, one, number, rfl⟩ := h
  refine ⟨zeros, short, fun k bound => ?_, ?_, ?_, rfl⟩
  · rw [← same _ (by omega) (by omega), blank k bound]
  · rw [← same _ (by omega) (by omega), one]
  · rw [number, value_congr fun k low high => same k (by omega) (by omega)]

end BitString
