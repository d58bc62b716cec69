import Chiaki.Common

/-!
# Numbers in network order
-/

namespace Chiaki

def htons (n : Nat) : Bytes := [UInt8.ofNat (n / 2 ^ 8), UInt8.ofNat n]

def htonl (n : Nat) : Bytes :=
  [UInt8.ofNat (n / 2 ^ 24), UInt8.ofNat (n / 2 ^ 16), UInt8.ofNat (n / 2 ^ 8), UInt8.ofNat n]

def ntoh (bytes : Bytes) : Nat := bytes.foldl (fun n b => n * 2 ^ 8 + b.toNat) 0

@[simp] theorem length_htons (n : Nat) : (htons n).length = 2 := rfl
@[simp] theorem length_htonl (n : Nat) : (htonl n).length = 4 := rfl

theorem ntoh_htonl (n : Nat) : ntoh (htonl n) = n % 2 ^ 32 := by
  simp only [ntoh, htonl, List.foldl_cons, List.foldl_nil, UInt8.toNat_ofNat']
  omega

theorem ntoh_htons (n : Nat) : ntoh (htons n) = n % 2 ^ 16 := by
  simp only [ntoh, htons, List.foldl_cons, List.foldl_nil, UInt8.toNat_ofNat']
  omega

theorem htons_ntoh {bytes : Bytes} (two : bytes.length = 2) : htons (ntoh bytes) = bytes := by
  obtain ⟨hi, lo, rfl⟩ := List.length_eq_two.mp two
  have lt := lo.toNat_lt
  have same : (hi.toNat * 2 ^ 8 + lo.toNat) / 2 ^ 8 = hi.toNat := by omega
  simp only [htons, ntoh, List.foldl_cons, List.foldl_nil, zero_mul, zero_add, same, UInt8.ofNat_toNat]
  congr 2
  apply UInt8.toNat_inj.mp
  rw [UInt8.toNat_ofNat']
  omega

theorem ntoh_lt (bytes : Bytes) : ntoh bytes < 2 ^ (8 * bytes.length) := by
  induction bytes using List.reverseRecOn with
  | nil => decide
  | append_singleton bytes b ih =>
      have byte := b.toNat_lt
      rw [ntoh, List.foldl_append, List.length_append, List.length_singleton, Nat.mul_add, pow_add]
      change ntoh bytes * 2 ^ 8 + b.toNat < _
      omega

end Chiaki
