import Chiaki.Lib.Masking

/-!
# Cipher feedback

A text is cut into blocks. Each is combined with what the cipher makes of the encrypted block before it.
-/

namespace CipherFeedback

variable {β : Type*} (combine : β → β → β) (cipher : List β → List β) (size : Nat)

/-- For a text of at most so many blocks, with the block before the text. -/
def encrypt : (blocks : Nat) → (iv : List β) → List β → List β
  | 0, _, _ => []
  | blocks + 1, iv, text =>
      let block := List.zipWith combine (text.take size) (cipher iv)
      block ++ encrypt blocks block (text.drop size)

def decrypt : (blocks : Nat) → (iv : List β) → List β → List β
  | 0, _, _ => []
  | blocks + 1, iv, text =>
      List.zipWith combine (text.take size) (cipher iv) ++ decrypt blocks (text.take size) (text.drop size)

section Laws
variable {combine cipher size}

@[simp] theorem encrypt_nil (blocks : Nat) (iv : List β) : encrypt combine cipher size blocks iv [] = [] := by
  induction blocks generalizing iv with
  | zero => rfl
  | succ blocks ih => simp [encrypt, ih]

theorem length_block (wide : ∀ iv, size ≤ (cipher iv).length) (iv text : List β) :
    (List.zipWith combine (text.take size) (cipher iv)).length = min size text.length := by
  have := wide iv
  simp only [List.length_zipWith, List.length_take]
  omega

theorem length_encrypt (wide : ∀ iv, size ≤ (cipher iv).length) {blocks : Nat} {iv text : List β}
    (short : text.length ≤ blocks * size) : (encrypt combine cipher size blocks iv text).length = text.length := by
  induction blocks generalizing iv text with
  | zero =>
      rw [List.length_eq_zero_iff.mp (by omega : text.length = 0)]
      rfl
  | succ blocks ih =>
      have later : (text.drop size).length ≤ blocks * size := by
        rw [List.length_drop]
        rw [Nat.succ_mul] at short
        omega
      rw [encrypt, List.length_append, length_block wide, ih later, List.length_drop]
      omega

theorem length_decrypt (wide : ∀ iv, size ≤ (cipher iv).length) {blocks : Nat} {iv text : List β}
    (short : text.length ≤ blocks * size) : (decrypt combine cipher size blocks iv text).length = text.length := by
  induction blocks generalizing iv text with
  | zero =>
      rw [List.length_eq_zero_iff.mp (by omega : text.length = 0)]
      rfl
  | succ blocks ih =>
      have later : (text.drop size).length ≤ blocks * size := by
        rw [List.length_drop]
        rw [Nat.succ_mul] at short
        omega
      rw [decrypt, List.length_append, length_block wide, ih later, List.length_drop]
      omega

/-- What is combined twice with the same block is as it was, and the blocks are those that were encrypted. -/
theorem decrypt_encrypt (undoes : ∀ b k, combine (combine b k) k = b) (wide : ∀ iv, size ≤ (cipher iv).length)
    {blocks : Nat} {iv text : List β} (short : text.length ≤ blocks * size) :
    decrypt combine cipher size blocks iv (encrypt combine cipher size blocks iv text) = text := by
  induction blocks generalizing iv text with
  | zero =>
      rw [List.length_eq_zero_iff.mp (by omega : text.length = 0)]
      rfl
  | succ blocks ih =>
      have later : (text.drop size).length ≤ blocks * size := by
        rw [List.length_drop]
        rw [Nat.succ_mul] at short
        omega
      have undone : List.zipWith combine (List.zipWith combine (text.take size) (cipher iv)) (cipher iv) =
          text.take size := by
        apply Masking.zipWith_cancel combine undoes
        rw [List.length_take]
        exact (min_le_left _ _).trans (wide iv)
      have length := @length_block _ combine _ _ wide iv text
      rw [encrypt, decrypt]
      generalize List.zipWith combine (text.take size) (cipher iv) = block at undone length ⊢
      rcases Nat.le_total size text.length with whole | part
      · rw [Nat.min_eq_left whole] at length
        rw [List.take_left' length, List.drop_left' length, undone, ih later, List.take_append_drop]
      · -- The block is the last one.
        have last : text.drop size = [] := List.drop_eq_nil_of_le part
        rw [Nat.min_eq_right part] at length
        rw [last, encrypt_nil, List.append_nil, List.take_of_length_le (by omega), undone, List.drop_eq_nil_of_le (by omega),
          List.take_of_length_le part]
        have nothing := @ih block [] (by simp)
        rw [encrypt_nil] at nothing
        rw [nothing, List.append_nil]

end Laws

end CipherFeedback
