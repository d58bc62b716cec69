import Chiaki.Lib.BitString
import Chiaki.Bitstream.Slice

/-!
# Where the reader stands

The buffer and the read position together are a position in the row of bits of the data. Every function
of the reader moves it by the bits that it takes.
-/

namespace Chiaki
open Memory BitString

theorem ntoh_append (bytes : Bytes) (b : UInt8) : ntoh (bytes ++ [b]) = ntoh bytes * 2 ^ 8 + b.toNat := by
  rw [ntoh, List.foldl_append]
  rfl

theorem ntoh_eq_value (bytes : Bytes) : ntoh bytes = value (bit bytes) 0 (8 * bytes.length) := by
  induction bytes using List.reverseRecOn with
  | nil => rfl
  | append_singleton bytes b ih =>
      have before : value (bit (bytes ++ [b])) 0 (8 * bytes.length) = value (bit bytes) 0 (8 * bytes.length) := by
        apply value_congr
        intro k _ bound
        rw [bit_append, if_pos (by omega)]
      have last := value_byte (bytes ++ [b]) bytes.length
      rw [List.getD_append_right _ _ _ _ le_rfl, Nat.sub_self] at last
      rw [ntoh_append, ih, List.length_append, List.length_singleton, Nat.mul_add, value_add, before, Nat.zero_add,
        Nat.mul_one, last]
      rfl

theorem unsigned_natCast {n : Nat} (bound : n < 2 ^ 32) : unsigned n = n := by
  unfold unsigned
  omega

theorem signed_eq {x : Int} (low : -2 ^ 31 ≤ x) (high : x < 2 ^ 31) : signed x = x := by
  rw [signed, Int.bmod_eq_of_le_mul_two] <;> omega

theorem shiftLeft64_eq {x : BitVec 64} {n : Nat} (bound : n < 64) : shiftLeft64 x n = .ok (x <<< n) := by
  unfold shiftLeft64
  rw [if_pos (by omega)]
  rfl

theorem shiftRight64_eq {x : BitVec 64} {n : Nat} (bound : n < 64) : shiftRight64 x n = .ok (x >>> n) := by
  unfold shiftRight64
  rw [if_pos (by omega)]
  rfl

namespace Vlc

/-- The buffer holds the bits of the row `b` from `pos` up to `limit`. -/
structure Buffered (b : Nat → Bool) (pos limit : Nat) (vlc : Vlc) : Prop where
  invalid_eq : vlc.invalidBits = (pos : Int) + 32 - limit
  pos_le : pos ≤ limit
  full : limit ≤ pos + 63
  window : Window b pos limit vlc.buffer

section Buffered
variable (ndebug : Bool) {b : Nat → Bool} {pos limit : Nat} {vlc : Vlc} (h : Buffered b pos limit vlc)
include h

theorem Buffered.validBits : vlc.validBits = limit - pos := by
  have le := h.pos_le
  have full := h.full
  rw [Vlc.validBits, h.invalid_eq, show (32 : Int) - ((pos : Int) + 32 - limit) = ((limit - pos : Nat) : Int) by omega]
  exact unsigned_natCast (by omega)

theorem Buffered.peekbits {n : Nat} (positive : 0 < n) (bound : n < 64)
    (inside : pos + n ≤ limit ∨ (vlc.dataEnd ≤ vlc.data ∧ ∀ k, limit ≤ k → b k = false)) :
    vlc.peekbits ndebug n = .ok (value b pos n % 2 ^ 32) := by
  have checked : (ndebug || decide (n ≤ vlc.validBits) || decide (vlc.dataEnd ≤ vlc.data)) = true := by
    rw [h.validBits]
    rcases inside with inside | ⟨depleted, -⟩
    · rw [decide_eq_true (by omega)]
      simp
    · rw [decide_eq_true depleted, Bool.or_true]
  have shift : unsigned (64 - n) = 64 - n := by
    rw [show (64 : Int) - n = ((64 - n : Nat) : Int) by omega, unsigned_natCast (by omega)]
  have number : (vlc.buffer >>> (64 - n)).toNat = value b pos n :=
    h.window.toNat_shiftRight (by omega) (inside.imp_right fun depleted => depleted.2)
  rw [Vlc.peekbits, checked, assert_true, ok_bind, shift, shiftRight64_eq (by omega), ok_bind, number]
  rfl

theorem Buffered.eatbits {n : Nat} (bound : n < 64) (inside : pos + n ≤ limit) :
    ∃ vlc', vlc.eatbits ndebug n = .ok vlc' ∧ Buffered b (pos + n) limit vlc' ∧ vlc'.data = vlc.data ∧
      vlc'.dataEnd = vlc.dataEnd ∧ vlc'.bytesLeft = vlc.bytesLeft ∧ vlc'.address = vlc.address := by
  have full := h.full
  have invalid := h.invalid_eq
  have checked : (ndebug || decide (n ≤ vlc.validBits)) = true := by
    rw [h.validBits, decide_eq_true (by omega), Bool.or_true]
  have taken : signed (vlc.invalidBits + n) = vlc.invalidBits + n := signed_eq (by omega) (by omega)
  refine ⟨{ vlc with buffer := vlc.buffer <<< n, invalidBits := vlc.invalidBits + n }, ?_, ?_, rfl, rfl, rfl, rfl⟩
  · rw [Vlc.eatbits, checked, assert_true, ok_bind, shiftLeft64_eq bound, ok_bind, taken]
    rfl
  · exact ⟨by dsimp only; omega, inside, by omega, h.window.shiftLeft (by omega) n⟩

theorem Buffered.getUimsbf {n : Nat} (positive : 0 < n) (bound : n ≤ 32) (inside : pos + n ≤ limit) :
    ∃ vlc', vlc.getUimsbf ndebug n = .ok (vlc', value b pos n) ∧ Buffered b (pos + n) limit vlc' ∧
      vlc'.data = vlc.data ∧ vlc'.dataEnd = vlc.dataEnd ∧ vlc'.bytesLeft = vlc.bytesLeft ∧
      vlc'.address = vlc.address := by
  obtain ⟨vlc', eaten, moved⟩ := h.eatbits ndebug (show n < 64 by omega) inside
  have checked : (ndebug || decide (n ≤ vlc.validBits)) = true := by
    rw [h.validBits, decide_eq_true (by omega), Bool.or_true]
  have shift : unsigned (64 - n) = 64 - n := by
    rw [show (64 : Int) - n = ((64 - n : Nat) : Int) by omega, unsigned_natCast (by omega)]
  have number : (vlc.buffer >>> (64 - n)).toNat = value b pos n := h.window.toNat_shiftRight (by omega) (.inl inside)
  have small : value b pos n < 2 ^ 32 :=
    (value_lt b pos n).trans_le (Nat.pow_le_pow_right (by decide) bound)
  refine ⟨vlc', ?_, moved⟩
  rw [Vlc.getUimsbf, checked, assert_true, ok_bind, shift, shiftRight64_eq (by omega), ok_bind, eaten, ok_bind,
    number, Nat.mod_eq_of_lt small]
  rfl

theorem Buffered.bitsLeft (le : vlc.data ≤ vlc.dataEnd) (short : vlc.dataEnd + vlc.bytesLeft < 2 ^ 28) :
    vlc.bitsLeft = .ok ((vlc.dataEnd - vlc.data + vlc.bytesLeft) * 8 + (limit - pos)) := by
  have full := h.full
  have left : signed ((vlc.dataEnd - vlc.data : Nat) + vlc.bytesLeft) = ((vlc.dataEnd - vlc.data + vlc.bytesLeft : Nat) : Int) := by
    rw [signed_eq (by omega) (by omega)]
    omega
  unfold Vlc.bitsLeft
  simp only [left, h.validBits]
  rw [if_neg (by omega)]
  have total : ((vlc.dataEnd - vlc.data + vlc.bytesLeft : Nat) : Int) * 8 + ((limit - pos : Nat) : Int) =
      (((vlc.dataEnd - vlc.data + vlc.bytesLeft) * 8 + (limit - pos) : Nat) : Int) := by omega
  rw [total, unsigned_natCast (by omega)]
  rfl

end Buffered

/-- The reader is at bit `pos` of the row `b`, which goes on in the data behind the buffer and is zero
behind its end. -/
structure At (input : Bytes) (b : Nat → Bool) (pos : Nat) (vlc : Vlc) : Prop where
  data_le : vlc.data ≤ vlc.dataEnd
  end_le : vlc.dataEnd ≤ input.length
  invalid_eq : vlc.invalidBits = (pos : Int) + 32 - 8 * (vlc.data : Int)
  pos_le : pos ≤ 8 * vlc.data
  full : 8 * vlc.data ≤ pos + 63
  window : Window b pos (8 * vlc.data) vlc.buffer
  feeds : ∀ k, 8 * vlc.data ≤ k → k < 8 * vlc.dataEnd → b k = bit input k
  behind : ∀ k, 8 * vlc.dataEnd ≤ k → b k = false
  short : vlc.dataEnd + vlc.bytesLeft < 2 ^ 28

section At
variable {ndebug : Bool} {input : Bytes} {b : Nat → Bool} {pos : Nat} {vlc : Vlc} (h : At input b pos vlc)
include h

theorem At.buffered : Buffered b pos (8 * vlc.data) vlc where
  invalid_eq := by
    have eq := h.invalid_eq
    omega
  pos_le := h.pos_le
  full := h.full
  window := h.window

theorem At.validBits : vlc.validBits = 8 * vlc.data - pos := h.buffered.validBits

theorem At.bitsLeft : vlc.bitsLeft = .ok ((vlc.dataEnd - vlc.data + vlc.bytesLeft) * 8 + (8 * vlc.data - pos)) :=
  h.buffered.bitsLeft h.data_le h.short

theorem At.load {n : Nat} (inside : vlc.data + n ≤ vlc.dataEnd) (room : 8 * vlc.data - pos + 8 * n ≤ 63)
    {vlc' : Vlc}
    (buffer : vlc'.buffer = vlc.buffer |||
      BitVec.ofNat 64 (value b (8 * vlc.data) (8 * n)) <<< (64 - 8 * n - (8 * vlc.data - pos)))
    (data : vlc'.data = vlc.data + n) (invalid : vlc'.invalidBits = vlc.invalidBits - 8 * (n : Int))
    (dataEnd : vlc'.dataEnd = vlc.dataEnd) (bytesLeft : vlc'.bytesLeft = vlc.bytesLeft) : At input b pos vlc' where
  data_le := by omega
  end_le := by rw [dataEnd]; exact h.end_le
  invalid_eq := by
    rw [invalid, h.invalid_eq, data]
    omega
  pos_le := by
    have := h.pos_le
    omega
  full := by
    have := h.pos_le
    omega
  window := by
    rw [buffer, data, Nat.mul_add]
    exact h.window.append h.pos_le (by omega)
  feeds k low high := h.feeds k (by omega) (by omega)
  behind k low := h.behind k (by omega)
  short := by
    rw [dataEnd, bytesLeft]
    exact h.short

end At

section Load
variable {input : Bytes} {b : Nat → Bool} {pos : Nat}

theorem At.value_eq {vlc : Vlc} (h : At input b pos vlc) {n : Nat} (inside : vlc.data + n ≤ vlc.dataEnd)
    {bytes : Bytes} (taken : Memory.read input vlc.data n = some bytes) :
    ntoh bytes = value b (8 * vlc.data) (8 * n) := by
  have length := (length_of_read taken).1
  have inLength := h.end_le
  rw [read_eq_some (by omega)] at taken
  obtain rfl := Option.some.inj taken
  rw [ntoh_eq_value, length, value_take_drop]
  exact value_congr fun k low high => (h.feeds k low (by omega)).symm

theorem At.byte_eq {vlc : Vlc} (h : At input b pos vlc) (inside : vlc.data < vlc.dataEnd) :
    ∃ byte, input[vlc.data]? = some byte ∧ byte.toNat = value b (8 * vlc.data) 8 := by
  have inLength := h.end_le
  refine ⟨input[vlc.data], List.getElem?_eq_getElem (by omega), ?_⟩
  have byte := value_byte input vlc.data
  rw [List.getD_eq_getElem _ _ (by omega)] at byte
  rw [← byte]
  exact value_congr fun k low high => (h.feeds k low (by omega)).symm

theorem readBytes_at (left : Nat) {vlc : Vlc} (h : At input b pos vlc) (inside : vlc.data + left ≤ vlc.dataEnd)
    (room : 8 * vlc.data - pos + 8 * left ≤ 63) :
    ∃ vlc', vlc.readBytes input left = .ok vlc' ∧ At input b pos vlc' ∧ vlc'.data = vlc.data + left ∧
      vlc'.dataEnd = vlc.dataEnd ∧ vlc'.bytesLeft = vlc.bytesLeft ∧ vlc'.address = vlc.address := by
  induction left generalizing vlc with
  | zero => exact ⟨vlc, rfl, h, rfl, rfl, rfl, rfl⟩
  | succ left ih =>
      obtain ⟨byte, here, number⟩ := h.byte_eq (by omega)
      have low := h.pos_le
      have shift : 24 + vlc.invalidBits = ((64 - 8 * 1 - (8 * vlc.data - pos) : Nat) : Int) := by
        rw [h.invalid_eq]
        omega
      have loaded : At input b pos { vlc with
          buffer := vlc.buffer ||| BitVec.ofNat 64 byte.toNat <<< (64 - 8 * 1 - (8 * vlc.data - pos))
          data := vlc.data + 1
          invalidBits := vlc.invalidBits - 8 } :=
        h.load (n := 1) (by omega) (by omega) (by rw [number]) rfl rfl rfl rfl
      obtain ⟨vlc', done, at_, data, dataEnd, bytesLeft, address⟩ := ih loaded (by dsimp only; omega)
        (by dsimp only; omega)
      refine ⟨vlc', ?_, at_, ?_, dataEnd, bytesLeft, address⟩
      · rw [readBytes, here, inBounds_some, ok_bind, shift, shiftLeft64_eq (by omega), ok_bind]
        exact done
      · rw [data]
        dsimp only
        omega

/-- What filling leaves: at least 32 bits, or all there are. -/
structure Filled (pos : Nat) (vlc vlc' : Vlc) : Prop where
  data_le : vlc.data ≤ vlc'.data
  dataEnd_eq : vlc'.dataEnd = vlc.dataEnd
  bytesLeft_eq : vlc'.bytesLeft = vlc.bytesLeft
  address_eq : vlc'.address = vlc.address
  enough : pos + 32 ≤ 8 * vlc'.data ∨ vlc'.data = vlc'.dataEnd

theorem fillbits_at {vlc : Vlc} (h : At input b pos vlc) :
    ∃ vlc', vlc.fillbits input = .ok vlc' ∧ At input b pos vlc' ∧ Filled pos vlc vlc' := by
  have invalid := h.invalid_eq
  have low := h.pos_le
  have within := h.data_le
  unfold fillbits
  by_cases full : vlc.invalidBits ≤ 0
  · rw [if_pos full]
    exact ⟨vlc, rfl, h, le_rfl, rfl, rfl, rfl, .inl (by omega)⟩
  rw [if_neg full]
  by_cases dword : vlc.dataEnd - vlc.data ≥ 4
  · have inLength := h.end_le
    rw [if_pos dword, read_eq_some (by omega), inBounds_some, ok_bind]
    have number := h.value_eq (n := 4) (by omega) (read_eq_some (by omega))
    have shift : vlc.invalidBits = ((64 - 8 * 4 - (8 * vlc.data - pos) : Nat) : Int) := by omega
    have shifted : shiftLeft64 (BitVec.ofNat 64 (ntoh ((input.drop vlc.data).take 4))) vlc.invalidBits =
        .ok (BitVec.ofNat 64 (ntoh ((input.drop vlc.data).take 4)) <<< (64 - 8 * 4 - (8 * vlc.data - pos))) := by
      rw [shift]
      exact shiftLeft64_eq (by omega)
    rw [shifted, ok_bind]
    have loaded : At input b pos { vlc with
        buffer := vlc.buffer ||| BitVec.ofNat 64 (ntoh ((input.drop vlc.data).take 4)) <<<
          (64 - 8 * 4 - (8 * vlc.data - pos))
        data := vlc.data + 4
        invalidBits := vlc.invalidBits - 32 } :=
      h.load (n := 4) (by omega) (by omega) (by rw [number]) rfl rfl rfl rfl
    exact ⟨_, rfl, loaded, by dsimp only; omega, rfl, rfl, rfl, .inl (by dsimp only; omega)⟩
  · rw [if_neg dword]
    obtain ⟨vlc', done, at_, data, dataEnd, bytesLeft, address⟩ :=
      readBytes_at (vlc.dataEnd - vlc.data) h (by omega) (by omega)
    exact ⟨vlc', done, at_, by omega, dataEnd, bytesLeft, address, .inr (by omega)⟩

theorem init_at (address : Nat) (input : Bytes) (short : input.length < 2 ^ 27) :
    ∃ vlc, Vlc.init address input input.length = .ok vlc ∧ At input (bit input) 0 vlc ∧
      vlc.dataEnd = input.length ∧ vlc.bytesLeft = input.length := by
  have start : At input (bit input) 0 (Vlc.mk address 0 32 0 input.length input.length) :=
    ⟨Nat.zero_le _, le_rfl, rfl, le_rfl, Nat.zero_le _, fun i _ => by simp, fun _ _ _ => rfl,
      fun k outside => bit_of_length_le outside, by dsimp only; omega⟩
  obtain ⟨vlc, aligned, at_, -, dataEnd, bytesLeft, -⟩ :=
    readBytes_at (min ((4 - (address + 0) % 4) % 4) (input.length - 0)) start (by dsimp only; omega)
      (by dsimp only; omega)
  obtain ⟨vlc', filled, at', same⟩ := fillbits_at at_
  refine ⟨vlc', ?_, at', by rw [same.dataEnd_eq, dataEnd], by rw [same.bytesLeft_eq, bytesLeft]⟩
  rw [Vlc.init, alignDataPtr, aligned, ok_bind]
  exact filled

end Load

section Take
variable (ndebug : Bool) {input : Bytes} {b : Nat → Bool} {pos : Nat} {vlc : Vlc} (h : At input b pos vlc)
include h

theorem At.peekbits {n : Nat} (positive : 0 < n) (bound : n < 64)
    (inside : pos + n ≤ 8 * vlc.data ∨ vlc.data = vlc.dataEnd) :
    vlc.peekbits ndebug n = .ok (value b pos n % 2 ^ 32) := by
  apply h.buffered.peekbits ndebug positive bound
  apply inside.imp_right
  intro depleted
  exact ⟨depleted.symm.le, fun k behind => h.behind k (by omega)⟩

theorem At.moved {n : Nat} {vlc' : Vlc} (moved : Buffered b (pos + n) (8 * vlc.data) vlc') (data : vlc'.data = vlc.data)
    (dataEnd : vlc'.dataEnd = vlc.dataEnd) (bytesLeft : vlc'.bytesLeft = vlc.bytesLeft) : At input b (pos + n) vlc' where
  data_le := by rw [data, dataEnd]; exact h.data_le
  end_le := by rw [dataEnd]; exact h.end_le
  invalid_eq := by rw [moved.invalid_eq, data]; omega
  pos_le := by rw [data]; exact moved.pos_le
  full := by rw [data]; exact moved.full
  window := by rw [data]; exact moved.window
  feeds := by rw [data, dataEnd]; exact h.feeds
  behind := by rw [dataEnd]; exact h.behind
  short := by rw [dataEnd, bytesLeft]; exact h.short

theorem At.eatbits {n : Nat} (bound : n < 64) (inside : pos + n ≤ 8 * vlc.data) :
    ∃ vlc', vlc.eatbits ndebug n = .ok vlc' ∧ At input b (pos + n) vlc' ∧ vlc'.data = vlc.data ∧
      vlc'.dataEnd = vlc.dataEnd ∧ vlc'.bytesLeft = vlc.bytesLeft ∧ vlc'.address = vlc.address := by
  obtain ⟨vlc', eaten, moved, data, dataEnd, bytesLeft, address⟩ := h.buffered.eatbits ndebug bound inside
  exact ⟨vlc', eaten, h.moved moved data dataEnd bytesLeft, data, dataEnd, bytesLeft, address⟩

theorem At.getUimsbf {n : Nat} (positive : 0 < n) (bound : n ≤ 32) (inside : pos + n ≤ 8 * vlc.data) :
    ∃ vlc', vlc.getUimsbf ndebug n = .ok (vlc', value b pos n) ∧ At input b (pos + n) vlc' ∧
      vlc'.data = vlc.data ∧ vlc'.dataEnd = vlc.dataEnd ∧ vlc'.bytesLeft = vlc.bytesLeft ∧
      vlc'.address = vlc.address := by
  obtain ⟨vlc', got, moved, data, dataEnd, bytesLeft, address⟩ := h.buffered.getUimsbf ndebug positive bound inside
  exact ⟨vlc', got, h.moved moved data dataEnd bytesLeft, data, dataEnd, bytesLeft, address⟩

end Take
end Vlc

/-! ## The payload -/

/-- From byte `start` on no three bytes up to `limit` are an emulation prevention sequence or a start code. -/
def Plain (b : Nat → Bool) (start limit : Nat) : Prop :=
  ∀ k, start ≤ k → k + 3 ≤ limit → value b (8 * k) 24 ≠ 3 ∧ value b (8 * k) 24 ≠ 1

namespace Rbsp
variable (ndebug : Bool) {input : Bytes} {b : Nat → Bool} {pos start limit : Nat}

/-- All the bits in front of the last 16 have been searched for emulation prevention bytes, unless there
is nothing more to take in. -/
structure At (input : Bytes) (b : Nat → Bool) (pos : Nat) (rbsp : Rbsp) : Prop where
  nal : rbsp.nal.At input b pos
  escaped_le : rbsp.escaped ≤ 16
  searched : rbsp.nal.data = rbsp.nal.dataEnd ∨ (rbsp.escaped = 16 ∧ pos + 16 ≤ 8 * rbsp.nal.data)

theorem unescape_plain (rbsp : Rbsp) (h : rbsp.nal.At input b pos) (plain : Plain b start limit)
    (low : 8 * start ≤ pos) (inside : rbsp.nal.data ≤ limit) (fuel i : Nat)
    (aligned : 8 * rbsp.nal.data - pos < i ∨ (24 ≤ i ∧ (pos + i) % 8 = 0))
    (enough : 8 * rbsp.nal.data - pos < i + 8 * fuel) :
    unescape ndebug (fuel + 1) i (8 * rbsp.nal.data - pos) rbsp = .ok rbsp := by
  induction fuel generalizing i with
  | zero =>
      rw [unescape, if_pos (by omega)]
      rfl
  | succ fuel ih =>
      rw [unescape]
      by_cases done : i > 8 * rbsp.nal.data - pos
      · rw [if_pos done]
        rfl
      have full := h.full
      have posLe := h.pos_le
      rw [if_neg done, h.peekbits ndebug (by omega) (by omega) (.inl (by omega)), ok_bind]
      have window : value b pos i % 2 ^ 32 % 2 ^ 24 = value b (8 * ((pos + i) / 8 - 3)) 24 := by
        rw [Nat.mod_mod_of_dvd _ (Nat.pow_dvd_pow 2 (by decide)), value_mod (by omega)]
        congr 1
        omega
      rw [window, if_neg (plain _ (by omega) (by omega)).1]
      exact ih (i + 8) (.inr (by omega)) (by omega)

theorem fillbits_at {rbsp : Rbsp} (h : At input b pos rbsp) (plain : Plain b start limit)
    (low : 8 * start ≤ pos) (inside : pos + 63 < 8 * (limit + 1)) :
    ∃ rbsp', rbsp.fillbits ndebug input = .ok rbsp' ∧ At input b pos rbsp' ∧
      Vlc.Filled pos rbsp.nal rbsp'.nal := by
  have posLe := h.nal.pos_le
  have full := h.nal.full
  rw [fillbits, h.nal.validBits]
  by_cases many : 8 * rbsp.nal.data - pos ≥ 32
  · rw [if_pos many]
    exact ⟨rbsp, rfl, h, le_rfl, rfl, rfl, rfl, .inl (by omega)⟩
  obtain ⟨nal, filled, at_, same⟩ := Vlc.fillbits_at h.nal
  have grows := same.data_le
  have end_ := same.dataEnd_eq
  have within := at_.data_le
  rw [if_neg many, filled, ok_bind, at_.bitsLeft, ok_bind]
  have searched : nal.data = nal.dataEnd ∨ pos + 16 ≤ 8 * nal.data := by
    rcases h.searched with depleted | ⟨-, some_⟩
    · exact .inl (by omega)
    · exact .inr (by omega)
  split
  · refine ⟨_, rfl, ⟨at_, h.escaped_le, ?_⟩, same⟩
    rcases h.searched with depleted | ⟨all, some_⟩
    · exact .inl (by dsimp only; omega)
    · exact .inr ⟨all, by dsimp only; omega⟩
  · have escaped := h.escaped_le
    have first : unsigned ((8 * rbsp.nal.data - pos : Nat) - rbsp.escaped + 24) =
        8 * rbsp.nal.data - pos + 24 - rbsp.escaped := by
      rw [show ((8 * rbsp.nal.data - pos : Nat) : Int) - rbsp.escaped + 24 =
        ((8 * rbsp.nal.data - pos + 24 - rbsp.escaped : Nat) : Int) by omega]
      exact unsigned_natCast (by omega)
    rw [first, at_.validBits]
    have full' := at_.full
    have done := unescape_plain ndebug { nal := nal, escaped := 16 } at_ plain low
      (by dsimp only; omega) 8 (8 * rbsp.nal.data - pos + 24 - rbsp.escaped) ?_ (by dsimp only; omega)
    · exact ⟨_, done, ⟨at_, le_rfl, searched.imp_right fun some_ => ⟨rfl, some_⟩⟩, same⟩
    · dsimp only
      rcases h.searched with depleted | ⟨all, some_⟩
      · exact .inl (by omega)
      · exact .inr ⟨by omega, by omega⟩

/-- Taking at most 16 of the bits that filling leaves keeps what is not searched yet in the buffer. -/
theorem At.take {rbsp : Rbsp} {nal : Vlc} {n : Nat} (h : At input b pos rbsp)
    (enough : pos + 32 ≤ 8 * rbsp.nal.data ∨ rbsp.nal.data = rbsp.nal.dataEnd) (few : n ≤ 16)
    (at_ : nal.At input b (pos + n)) (data : nal.data = rbsp.nal.data) (dataEnd : nal.dataEnd = rbsp.nal.dataEnd) :
    At input b (pos + n) { rbsp with nal := nal } where
  nal := at_
  escaped_le := h.escaped_le
  searched := by
    dsimp only
    rw [data, dataEnd]
    rcases enough with many | depleted
    · exact h.searched.imp_right fun some_ => ⟨some_.1, by omega⟩
    · exact .inl depleted

theorem inside_data {nal : Vlc} {n : Nat} (enough : pos + 32 ≤ 8 * nal.data ∨ nal.data = nal.dataEnd)
    (few : n ≤ 32) (inside : pos + n ≤ 8 * nal.dataEnd) : pos + n ≤ 8 * nal.data := by
  rcases enough with many | depleted <;> omega

theorem u_at {rbsp : Rbsp} (h : At input b pos rbsp) (plain : Plain b start limit) (low : 8 * start ≤ pos)
    (search : pos + 63 < 8 * (limit + 1)) {n : Nat} (few : n ≤ 16) (inside : pos + n ≤ 8 * rbsp.nal.dataEnd) :
    ∃ rbsp', rbsp.u ndebug input n = .ok (rbsp', value b pos n) ∧ At input b (pos + n) rbsp' ∧
      rbsp'.nal.dataEnd = rbsp.nal.dataEnd := by
  unfold u
  by_cases none_ : n = 0
  · subst none_
    exact ⟨rbsp, rfl, h, rfl⟩
  obtain ⟨filled, fill, at_, same⟩ := fillbits_at ndebug h plain low search
  have taken : pos + n ≤ 8 * filled.nal.data := by
    apply inside_data same.enough (by omega)
    rw [same.dataEnd_eq]
    exact inside
  obtain ⟨nal, get, moved, data, dataEnd, -⟩ := at_.nal.getUimsbf ndebug (by omega) (by omega) taken
  refine ⟨{ filled with nal := nal }, ?_, at_.take same.enough few moved data dataEnd, ?_⟩
  · rw [if_neg none_, fillbitsFor, fill, ok_bind, if_neg (by omega)]
    simp only [pure, Except.pure, ok_bind, get]
  · dsimp only
    rw [dataEnd, same.dataEnd_eq]

theorem countZeros_buffered {stop : Nat} {nal : Vlc} (h : nal.Buffered b pos stop) (zeros fuel : Nat)
    (blank : ∀ k < zeros, b (pos + k) = false) (one : b (pos + zeros) = true) (inside : pos + zeros + 1 ≤ stop)
    (enough : zeros < fuel) (bits : Nat) :
    ∃ nal', countZeros ndebug fuel nal bits = .ok (nal', bits + zeros) ∧ nal'.Buffered b (pos + zeros + 1) stop ∧
      nal'.data = nal.data ∧ nal'.dataEnd = nal.dataEnd ∧ nal'.bytesLeft = nal.bytesLeft := by
  induction zeros generalizing pos nal fuel bits with
  | zero =>
      obtain ⟨fuel, rfl⟩ := Nat.exists_eq_add_of_lt enough
      obtain ⟨nal', get, moved, data, dataEnd, bytesLeft, -⟩ :=
        h.getUimsbf ndebug (n := 1) (by omega) (by omega) inside
      refine ⟨nal', ?_, moved, data, dataEnd, bytesLeft⟩
      have set : value b pos 1 = 1 := by
        rw [value_one, ← Nat.add_zero pos, one]
        rfl
      rw [countZeros, get, ok_bind]
      dsimp only
      rw [set]
      rfl
  | succ zeros ih =>
      obtain ⟨fuel, rfl⟩ := Nat.exists_eq_add_of_lt enough
      obtain ⟨nal1, get, moved, data, dataEnd, bytesLeft, -⟩ :=
        h.getUimsbf ndebug (n := 1) (by omega) (by omega) (by omega)
      have clear : value b pos 1 = 0 := by
        rw [value_one, ← Nat.add_zero pos, blank 0 (by omega)]
        rfl
      obtain ⟨nal2, counted, moved2, data2, dataEnd2, bytesLeft2⟩ := ih moved (zeros + 1 + fuel)
        (fun k bound => by rw [Nat.add_assoc, Nat.add_comm 1 k]; exact blank (k + 1) (by omega))
        (by rw [Nat.add_assoc, Nat.add_comm 1 zeros]; exact one) (by omega) (by omega) (bits + 1)
      refine ⟨nal2, ?_, ?_, by rw [data2, data], by rw [dataEnd2, dataEnd], by rw [bytesLeft2, bytesLeft]⟩
      · rw [countZeros, get, ok_bind]
        dsimp only
        rw [clear, if_pos rfl, counted, Nat.add_right_comm, Nat.add_assoc]
      · rwa [Nat.add_assoc pos, Nat.add_comm 1 zeros] at moved2

theorem countZeros_at {nal : Vlc} (h : nal.At input b pos) (zeros fuel : Nat) (blank : ∀ k < zeros, b (pos + k) = false)
    (one : b (pos + zeros) = true) (inside : pos + zeros + 1 ≤ 8 * nal.data) (enough : zeros < fuel)
    (bits : Nat) :
    ∃ nal', countZeros ndebug fuel nal bits = .ok (nal', bits + zeros) ∧ nal'.At input b (pos + zeros + 1) ∧
      nal'.data = nal.data ∧ nal'.dataEnd = nal.dataEnd := by
  obtain ⟨nal', counted, moved, data, dataEnd, bytesLeft⟩ :=
    countZeros_buffered ndebug h.buffered zeros fuel blank one inside enough bits
  exact ⟨nal', counted, h.moved (n := zeros + 1) moved data dataEnd bytesLeft, data, dataEnd⟩

theorem ue_at {rbsp : Rbsp} (h : At input b pos rbsp) (plain : Plain b start limit) (low : 8 * start ≤ pos)
    {number next : Nat} (code : Code 15 b pos number next) (search : next + 63 < 8 * (limit + 1))
    (inside : next ≤ 8 * rbsp.nal.dataEnd) :
    ∃ rbsp', rbsp.ue ndebug input = .ok (rbsp', number) ∧ At input b next rbsp' ∧
      rbsp'.nal.dataEnd = rbsp.nal.dataEnd := by
  obtain ⟨zeros, short, blank, one, rfl, rfl⟩ := code
  obtain ⟨filled, fill, at_, same⟩ := fillbits_at ndebug h plain low (by omega)
  have end_ := same.dataEnd_eq
  have counting : pos + zeros + 1 ≤ 8 * filled.nal.data := by
    rw [Nat.add_assoc]
    exact inside_data same.enough (by omega) (by omega)
  obtain ⟨nal, counted, moved, data, dataEnd⟩ :=
    countZeros_at ndebug at_.nal zeros 65 blank one counting (by omega) 0
  have leading : At input b (pos + zeros + 1) { filled with nal := nal } :=
    at_.take (n := zeros + 1) same.enough (by omega) moved data dataEnd
  obtain ⟨rbsp', rest, done, dataEnd'⟩ := u_at ndebug leading plain (by omega) (by omega) (n := zeros) (by omega)
    (by dsimp only; omega)
  have small : 2 ^ zeros ≤ 2 ^ 15 := Nat.pow_le_pow_right (by decide) short
  have least : Rbsp.one zeros = .ok (2 ^ zeros) := if_pos (by omega)
  have bound := value_lt b (pos + zeros + 1) zeros
  refine ⟨rbsp', ?_, ?_, ?_⟩
  · rw [ue, fill, ok_bind, counted, ok_bind]
    dsimp only
    rw [Nat.zero_add, least, ok_bind, rest, ok_bind, Nat.mod_eq_of_lt (by omega)]
    rfl
  · rwa [show pos + (2 * zeros + 1) = pos + zeros + 1 + zeros by omega]
  · rw [dataEnd']
    dsimp only
    rw [dataEnd, end_]

end Rbsp
end Chiaki
