import Chiaki.Lib.LittleEndian
import Chiaki.GKCrypt.Gmac

/-!
# The key stream

`chiaki_gkcrypt_gen_key_stream`: the counter blocks, from a counter that is an `int`, encrypted one by one.
-/

namespace Chiaki
open LittleEndian

/-- AES-128 of single blocks, and HMAC. -/
structure CipherLib extends CryptoLib where
  aes128 : (key block : Bytes) → Bytes
  hmacSha256 : (key data : Bytes) → Bytes
  aes128_length : ∀ key block, (aes128 key block).length = 0x10
  aes128_injective : ∀ key a b, a.length = 0x10 → b.length = 0x10 → aes128 key a = aes128 key b → a = b
  hmacSha256_length : ∀ key data, (hmacSha256 key data).length = 0x20

/-- What AES-128 makes of a block of zeros under a key of zeros. -/
def aesOfZeros : Bytes :=
  [0x66, 0xe9, 0x4b, 0xd4, 0xef, 0x8a, 0x2c, 0x3b, 0x88, 0x4c, 0xfa, 0x59, 0xca, 0x34, 0x2b, 0x2e]

/-- A cipher that is right about zeros. -/
instance : Inhabited CipherLib where
  default := {
    toCryptoLib := default
    aes128 := fun _ block => List.zipWith (· ^^^ ·) ((block ++ List.replicate 0x10 0).take 0x10) aesOfZeros
    hmacSha256 := fun _ _ => List.replicate 0x20 0
    aes128_length := by simp [aesOfZeros]
    aes128_injective := by
      intro _ a b lengthA lengthB same
      have blocks (block : Bytes) (length : block.length = 0x10) :
          (block ++ List.replicate 0x10 0).take 0x10 = block := by
        rw [← length, List.take_left]
      rw [blocks a lengthA, blocks b lengthB] at same
      apply List.ext_getElem (lengthA.trans lengthB.symm)
      intro i insideA insideB
      have bytes : (List.zipWith (· ^^^ ·) a aesOfZeros)[i]? = (List.zipWith (· ^^^ ·) b aesOfZeros)[i]? := by
        rw [same]
      have inside : i < aesOfZeros.length := by simp only [aesOfZeros, List.length_cons, List.length_nil]; omega
      simpa [List.getElem?_zipWith, List.getElem?_eq_getElem, insideA, insideB, inside] using bytes
    hmacSha256_length := fun _ _ => List.length_replicate }

/-- `(int)n` of an unsigned number. -/
def intOfNat (n : Nat) : Int := Int.bmod n (2 ^ 32)

/-- An `int` as a `uint64_t`. -/
def uint64OfInt (n : Int) : Nat := (n % 2 ^ 64).toNat

/-- `n++` of an `int`. -/
def intIncrement (n : Int) : Checked Int :=
  if n < 2 ^ 31 - 1 then pure (n + 1) else .error .signedOverflow

namespace GKCrypt

/-- The loop that writes the counter blocks. -/
def counterBlocks (iv : Bytes) : (left : Nat) → (counterOffset : Int) → Checked (List Bytes)
  | 0, _ => pure []
  | left + 1, counterOffset => do
      let next ← intIncrement counterOffset
      let rest ← counterBlocks iv left next
      pure (counterAdd iv (uint64OfInt counterOffset) :: rest)

/-- `chiaki_gkcrypt_gen_key_stream`; `ok` says whether the calls into the library go through. The length is
handed to it as an `int`, and what it wrote must be the whole length. -/
def genKeyStream (lib : CipherLib) (ok : Bool) (crypt : GKCrypt) (keyPos bufSize : Nat) :
    Checked (Except ErrorCode Bytes) := do
  assert (keyPos % gkcryptBlockSize = 0)
  assert (bufSize % gkcryptBlockSize = 0)
  if !ok then pure (.error .unknown)
  else do
    let blocks ← counterBlocks crypt.iv (bufSize / gkcryptBlockSize) (intOfNat (keyPos / gkcryptBlockSize))
    if bufSize < 2 ^ 31 then pure (.ok (blocks.map (lib.aes128 crypt.keyBase)).flatten)
    else pure (.error .unknown)

/-! ## The counter -/

@[simp] theorem length_counterAdd (base : Bytes) (v : Nat) : (counterAdd base v).length = base.length := by
  induction base generalizing v with
  | nil => rfl
  | cons b rest ih =>
      simp only [counterAdd]
      split <;> simp [ih]

theorem value_counterAdd {base : Bytes} {v : Nat} (fits : ∀ b ∈ base.head?, b.toNat + v < 2 ^ 64) :
    value (counterAdd base v) = (value base + v) % 256 ^ base.length := by
  induction base generalizing v with
  | nil => simp [counterAdd, Nat.mod_one]
  | cons b rest ih =>
      have fits : b.toNat + v < 2 ^ 64 := fits b rfl
      have bound := value_lt rest
      have lowest : (UInt8.ofNat (b.toNat + v)).toNat = (b.toNat + v) % 256 := UInt8.toNat_ofNat'
      have noWrap : (b.toNat + v) % 2 ^ 64 = b.toNat + v := Nat.mod_eq_of_lt fits
      have low : (b.toNat + 256 * value rest + v) % 256 = (b.toNat + v) % 256 := by omega
      have high : (b.toNat + 256 * value rest + v) / 256 = value rest + (b.toNat + v) / 256 := by omega
      simp only [counterAdd, noWrap, value_cons, lowest, List.length_cons, show (2 : Nat) ^ 8 = 256 by rfl]
      rw [pow_succ' 256 rest.length, Nat.mod_mul, low, high]
      split
      · rename_i done
        rw [done, Nat.add_zero, Nat.mod_eq_of_lt bound]
      · rw [ih fun c _ => by have := c.toNat_lt; omega]

theorem value_counterAdd_lost {b : UInt8} {rest : Bytes} {v : Nat} (small : v < 2 ^ 64)
    (overflow : 2 ^ 64 ≤ b.toNat + v) :
    value (counterAdd (b :: rest) v) + 2 ^ 64 = value (b :: rest) + v := by
  have byte := b.toNat_lt
  have wraps : (b.toNat + v) % 2 ^ 64 = b.toNat + v - 2 ^ 64 := by omega
  have lowest : (UInt8.ofNat (b.toNat + v - 2 ^ 64)).toNat = b.toNat + v - 2 ^ 64 := by
    rw [UInt8.toNat_ofNat']
    omega
  rw [counterAdd, wraps, if_pos (by omega), value_cons, value_cons, lowest]
  omega

/-- The counter block `k` places after the IV. -/
def counterAt (iv : Bytes) (k : Nat) : Bytes := ofNat 0x10 ((value iv + k) % 2 ^ 128)

@[simp] theorem length_counterAt (iv : Bytes) (k : Nat) : (counterAt iv k).length = 0x10 :=
  length_ofNat _ _

theorem value_counterAt (iv : Bytes) (k : Nat) : value (counterAt iv k) = (value iv + k) % 2 ^ 128 := by
  rw [counterAt, value_ofNat, show (256 : Nat) ^ 0x10 = 2 ^ 128 by norm_num, Nat.mod_mod]

theorem counterAdd_eq {iv : Bytes} (length : iv.length = 0x10) {k : Nat} (small : k < 2 ^ 60) :
    counterAdd iv k = counterAt iv k := by
  apply eq_of_value (by simp [length])
  rw [value_counterAdd fun b _ => by have := b.toNat_lt; omega, value_counterAt, length, show (256 : Nat) ^ 0x10 = 2 ^ 128 by norm_num]

theorem counterAt_injective {iv : Bytes} {j k : Nat} (hj : j < 2 ^ 60) (hk : k < 2 ^ 60)
    (same : counterAt iv j = counterAt iv k) : j = k := by
  have values := congrArg value same
  rw [value_counterAt, value_counterAt] at values
  have close : j % 2 ^ 128 = k % 2 ^ 128 := Nat.ModEq.add_left_cancel' (value iv) values
  omega

theorem uint64_intOfNat (k : Nat) :
    (uint64OfInt (intOfNat k) < 2 ^ 31 ∧ (k < 2 ^ 31 → uint64OfInt (intOfNat k) = k)) ∨
      2 ^ 31 ≤ k ∧ 2 ^ 64 - 2 ^ 31 ≤ uint64OfInt (intOfNat k) ∧ uint64OfInt (intOfNat k) < 2 ^ 64 := by
  unfold uint64OfInt intOfNat
  rw [Int.bmod_def]
  split <;> omega

theorem counterAdd_int_ne {iv : Bytes} (length : iv.length = 0x10) {k : Nat} (small : k < 2 ^ 60)
    (large : 2 ^ 31 ≤ k) : counterAdd iv (uint64OfInt (intOfNat k)) ≠ counterAt iv k := by
  intro same
  have values := congrArg value same
  have range := uint64_intOfNat k
  rw [value_counterAt] at values
  generalize uint64OfInt (intOfNat k) = v at values range
  cases iv with
  | nil => simp at length
  | cons b rest =>
      have byte := b.toNat_lt
      have bound := value_lt (b :: rest)
      rw [length, show (256 : Nat) ^ 0x10 = 2 ^ 128 by norm_num] at bound
      by_cases fits : b.toNat + v < 2 ^ 64
      · rw [value_counterAdd (by simpa using fits), length, show (256 : Nat) ^ 0x10 = 2 ^ 128 by norm_num] at values
        have close : v % 2 ^ 128 = k % 2 ^ 128 := Nat.ModEq.add_left_cancel' (value (b :: rest)) values
        omega
      · have lost := @value_counterAdd_lost b rest v (by omega) (by omega)
        omega

/-! ## The stream -/

/-- The key stream as a function of the position. -/
def keyStream (lib : CipherLib) (crypt : GKCrypt) (keyPos size : Nat) : Bytes :=
  ((List.range (size / gkcryptBlockSize)).map fun i =>
    lib.aes128 crypt.keyBase (counterAt crypt.iv (keyPos / gkcryptBlockSize + i))).flatten

theorem counterBlocks_ok (iv : Bytes) {n : Nat} {offset : Int} (fits : n = 0 ∨ offset + n < 2 ^ 31) :
    counterBlocks iv n offset =
      .ok ((List.range n).map fun i => counterAdd iv (uint64OfInt (offset + (i : Nat)))) := by
  induction n generalizing offset with
  | zero => rfl
  | succ n ih =>
      have next : intIncrement offset = .ok (offset + 1) := by
        rw [intIncrement, if_pos (by omega)]
        rfl
      have shift (i : Nat) : offset + 1 + (i : Int) = offset + (i.succ : Nat) := by omega
      rw [counterBlocks, next, ok_bind, ih (by omega), ok_bind, List.range_succ_eq_map, List.map_cons,
        List.map_map]
      simp only [Function.comp_def, shift, Nat.cast_zero, add_zero]
      rfl

theorem counterBlocks_overflow (iv : Bytes) {n : Nat} {offset : Int} (full : ¬ (n = 0 ∨ offset + n < 2 ^ 31)) :
    counterBlocks iv n offset = .error .signedOverflow := by
  induction n generalizing offset with
  | zero => simp at full
  | succ n ih =>
      rw [counterBlocks, intIncrement]
      split
      · rename_i room
        rw [show (pure (offset + 1) : Checked Int) = .ok (offset + 1) from rfl, ok_bind, ih (by omega)]
        rfl
      · rfl

section
variable (lib : CipherLib) {crypt : GKCrypt} {keyPos size : Nat}
  (posAligned : keyPos % gkcryptBlockSize = 0) (sizeAligned : size % gkcryptBlockSize = 0)
include posAligned sizeAligned

theorem genKeyStream_eq : genKeyStream lib true crypt keyPos size = (do
    let blocks ← counterBlocks crypt.iv (size / gkcryptBlockSize) (intOfNat (keyPos / gkcryptBlockSize))
    if size < 2 ^ 31 then pure (.ok (blocks.map (lib.aes128 crypt.keyBase)).flatten)
    else pure (.error .unknown)) := by
  rw [genKeyStream, decide_eq_true posAligned, decide_eq_true sizeAligned]
  rfl

theorem genKeyStream_below (ivLength : crypt.iv.length = 0x10) (short : size < 2 ^ 31)
    (below : size = 0 ∨ keyPos + size < 2 ^ 35) :
    genKeyStream lib true crypt keyPos size = .ok (.ok (keyStream lib crypt keyPos size)) := by
  rw [genKeyStream_eq lib posAligned sizeAligned]
  simp only [gkcryptBlockSize] at posAligned sizeAligned ⊢
  rcases below with rfl | below
  · rfl
  · have same : intOfNat (keyPos / 0x10) = (keyPos / 0x10 : Nat) := by
      unfold intOfNat
      rw [Int.bmod_def]
      split <;> omega
    have blocks : (List.range (size / 0x10)).map (fun i =>
          counterAdd crypt.iv (uint64OfInt (intOfNat (keyPos / 0x10) + (i : Nat)))) =
        (List.range (size / 0x10)).map fun i => counterAt crypt.iv (keyPos / 0x10 + i) := by
      apply List.map_congr_left
      intro i inside
      have bound := List.mem_range.mp inside
      have offset : uint64OfInt (intOfNat (keyPos / 0x10) + (i : Nat)) = keyPos / 0x10 + i := by
        rw [same, uint64OfInt]
        omega
      rw [offset, counterAdd_eq ivLength (by omega)]
    rw [counterBlocks_ok crypt.iv (by rw [same]; omega), ok_bind, if_pos short, blocks, List.map_map]
    rfl

theorem genKeyStream_above (ivLength : crypt.iv.length = 0x10) (room : keyPos + size < 2 ^ 64)
    (above : ¬ (size < 2 ^ 31 ∧ (size = 0 ∨ keyPos + size < 2 ^ 35))) :
    genKeyStream lib true crypt keyPos size ≠ .ok (.ok (keyStream lib crypt keyPos size)) := by
  rw [genKeyStream_eq lib posAligned sizeAligned]
  simp only [gkcryptBlockSize] at posAligned sizeAligned ⊢
  intro right
  by_cases fits : size / 0x10 = 0 ∨ intOfNat (keyPos / 0x10) + (size / 0x10 : Nat) < 2 ^ 31
  · rw [counterBlocks_ok crypt.iv fits, ok_bind] at right
    by_cases short : size < 2 ^ 31
    · rw [if_pos short] at right
      have large : 2 ^ 31 ≤ keyPos / 0x10 := by
        by_contra small
        have same : intOfNat (keyPos / 0x10) = (keyPos / 0x10 : Nat) := by
          unfold intOfNat
          rw [Int.bmod_def]
          split <;> omega
        omega
      obtain ⟨n, blocks⟩ : ∃ n, size / 0x10 = n + 1 := ⟨size / 0x10 - 1, by omega⟩
      have streams := Except.ok.inj (Except.ok.inj right)
      rw [keyStream, gkcryptBlockSize, blocks, List.range_succ_eq_map] at streams
      simp only [List.map_cons, List.flatten_cons, Nat.cast_zero, add_zero] at streams
      have first := List.append_inj_left streams (by rw [lib.aes128_length, lib.aes128_length])
      refine counterAdd_int_ne ivLength (by omega) large ?_
      exact lib.aes128_injective _ _ _ (by simp [ivLength]) (by simp) first
    · rw [if_neg short] at right
      simp [pure, Except.pure] at right
  · rw [counterBlocks_overflow crypt.iv fits] at right
    cases right

end

theorem keyStream_split (lib : CipherLib) (crypt : GKCrypt) {keyPos m n : Nat}
    (posAligned : keyPos % gkcryptBlockSize = 0) (aligned : m % gkcryptBlockSize = 0) :
    keyStream lib crypt keyPos (m + n) = keyStream lib crypt keyPos m ++ keyStream lib crypt (keyPos + m) n := by
  simp only [gkcryptBlockSize] at posAligned aligned
  have blocks : (m + n) / 0x10 = m / 0x10 + n / 0x10 := by omega
  have start : (keyPos + m) / 0x10 = keyPos / 0x10 + m / 0x10 := by omega
  simp only [keyStream, gkcryptBlockSize, blocks, start, List.range_add, List.map_append, List.map_map,
    List.flatten_append, Function.comp_def, Nat.add_assoc]

/-- The stream of a range: one block for each counter from that of the MAC on, whole or in two parts. -/
structure StreamsRight (lib : CipherLib) (crypt : GKCrypt) (keyPos size : Nat) : Prop where
  whole : genKeyStream lib true crypt keyPos size = .ok (.ok (keyStream lib crypt keyPos size))
  parts : ∀ m n, m + n = size → m % gkcryptBlockSize = 0 → ∃ a b,
    genKeyStream lib true crypt keyPos m = .ok (.ok a) ∧
    genKeyStream lib true crypt (keyPos + m) n = .ok (.ok b) ∧ keyStream lib crypt keyPos size = a ++ b
  base : ∀ buf crypt' tag, crypt.gmac lib.toCryptoLib true keyPos buf = .ok (crypt', some tag) →
    ∃ key, tag = lib.gcmTag key (counterAt crypt.iv (keyPos / gkcryptBlockSize)) buf

/-- The counter is right as long as it fits an `int`. -/
theorem streamsRight_iff (lib : CipherLib) {crypt : GKCrypt} {keyPos size : Nat}
    (ivLength : crypt.iv.length = 0x10) (posAligned : keyPos % gkcryptBlockSize = 0)
    (sizeAligned : size % gkcryptBlockSize = 0) (room : keyPos + size < 2 ^ 64) :
    StreamsRight lib crypt keyPos size ↔ size < 2 ^ 31 ∧ (size = 0 ∨ keyPos + size < 2 ^ 35) := by
  constructor
  · intro right
    by_contra above
    exact genKeyStream_above lib posAligned sizeAligned ivLength room above right.whole
  · rintro ⟨short, below⟩
    refine ⟨genKeyStream_below lib posAligned sizeAligned ivLength short below, ?_, ?_⟩
    · rintro m n rfl aligned
      simp only [gkcryptBlockSize] at posAligned aligned sizeAligned
      refine ⟨_, _, genKeyStream_below lib posAligned aligned ivLength (by omega) (by omega),
        genKeyStream_below lib (by simp only [gkcryptBlockSize]; omega) (by simp only [gkcryptBlockSize]; omega)
          ivLength (by omega) (by omega), keyStream_split lib crypt posAligned aligned⟩
    · intro buf crypt' tag computed
      obtain ⟨r, -, computed⟩ := bind_eq_ok computed
      obtain ⟨-, rfl⟩ : r.1 = crypt' ∧ _ = tag := by simpa using Except.ok.inj computed
      refine ⟨r.2, ?_⟩
      rw [← counterAdd_eq ivLength (by simp only [gkcryptBlockSize]; omega)]
      rfl

/-- One block under keys of zeros. -/
theorem streamsRight_zeros :
    StreamsRight default (ofKeys default (List.replicate 0x10 0) (List.replicate 0x10 0)) 0 0x10 :=
  (streamsRight_iff default List.length_replicate rfl rfl (by decide)).mpr (by decide)

/-- At 32 GiB the counter turns negative. -/
theorem not_streamsRight_negative :
    ¬ StreamsRight default (ofKeys default (List.replicate 0x10 0) (List.replicate 0x10 0)) (2 ^ 35) 0x10 := by
  intro right
  exact genKeyStream_above default rfl rfl List.length_replicate (by decide) (by decide) right.whole

end GKCrypt
end Chiaki
