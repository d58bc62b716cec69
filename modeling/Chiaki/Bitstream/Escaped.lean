import Chiaki.Lib.EmulationPrevention
import Chiaki.Bitstream.Cursor

/-!
# Reading what is escaped

The reader takes in bytes of a unit and removes the emulation prevention bytes among them from its buffer.
Its bits are then those of the payload.
-/

namespace Chiaki
open Memory BitString EmulationPrevention

/-! ## Rows of bytes -/

theorem bit_append_left {data rest : Bytes} {k : Nat} (inside : k < 8 * data.length) :
    bit (data ++ rest) k = bit data k := by
  rw [bit_append, if_pos inside]

theorem value_three (front rest : Bytes) (a b c : UInt8) :
    value (bit (front ++ a :: b :: c :: rest)) (8 * front.length) 24 =
      a.toNat * 2 ^ 16 + b.toNat * 2 ^ 8 + c.toNat := by
  have byte (i : Nat) (x : UInt8) (there : (a :: b :: c :: rest)[i]? = some x) :
      value (bit (front ++ a :: b :: c :: rest)) (8 * (front.length + i)) 8 = x.toNat := by
    rw [value_byte, List.getD_eq_getElem?_getD, List.getElem?_append_right (by omega), Nat.add_sub_cancel_left, there]
    rfl
  have first := byte 0 a rfl
  have second := byte 1 b rfl
  have third := byte 2 c rfl
  rw [show 24 = 8 + 8 + 8 from rfl, value_add, value_add, show 8 * front.length + 8 = 8 * (front.length + 1) by omega,
    show 8 * front.length + (8 + 8) = 8 * (front.length + 2) by omega, second, third]
  rw [Nat.add_zero] at first
  rw [first]
  omega

theorem eq_of_value_three {a b c : UInt8} (three : a.toNat * 2 ^ 16 + b.toNat * 2 ^ 8 + c.toNat = 3) :
    a = 0 ∧ b = 0 ∧ c = 3 := by
  have boundC := c.toNat_lt
  refine ⟨UInt8.toNat_inj.mp ?_, UInt8.toNat_inj.mp ?_, UInt8.toNat_inj.mp ?_⟩
  · show a.toNat = 0
    omega
  · show b.toNat = 0
    omega
  · show c.toNat = 3
    omega

/-- Without their first bits, too, three bytes are 3 only if the last one is and all other bits are zero. -/
theorem value_three_eq {front rest : Bytes} {a b c : UInt8} {pos : Nat} (low : 8 * front.length ≤ pos)
    (high : pos ≤ 8 * front.length + 16)
    (three : value (bit (front ++ a :: b :: c :: rest)) pos (8 * front.length + 24 - pos) = 3) :
    c = 3 ∧ ∀ k, pos ≤ k → k < 8 * front.length + 16 → bit (front ++ a :: b :: c :: rest) k = false := by
  have last : value (bit (front ++ a :: b :: c :: rest)) (8 * (front.length + 2)) 8 = c.toNat := by
    rw [value_byte, List.getD_eq_getElem?_getD, List.getElem?_append_right (by omega), Nat.add_sub_cancel_left]
    rfl
  obtain ⟨n, count⟩ := Nat.exists_eq_add_of_le high
  have boundC := c.toNat_lt
  rw [show 8 * front.length + 24 - pos = n + 8 by omega, value_add, show pos + n = 8 * (front.length + 2) by omega,
    last] at three
  have zero : value (bit (front ++ a :: b :: c :: rest)) pos n = 0 := by omega
  refine ⟨UInt8.toNat_inj.mp (show c.toNat = 3 by omega), fun k from_ below => ?_⟩
  have clear := @testBit_value (bit (front ++ a :: b :: c :: rest)) pos n (n - 1 - (k - pos))
  rw [zero, Nat.zero_testBit, decide_eq_true (by omega), Bool.true_and,
    show pos + (n - 1 - (n - 1 - (k - pos))) = k by omega] at clear
  exact clear.symm

theorem bit_without (front rest : Bytes) (c : UInt8) (k : Nat) :
    (if k < 8 * front.length then bit (front ++ c :: rest) k else bit (front ++ c :: rest) (k + 8)) =
      bit (front ++ rest) k := by
  split
  · rename_i inside
    rw [bit_append_left inside, bit_append_left inside]
  · rename_i outside
    rw [bit_append, if_neg (by omega), bit_append, if_neg outside,
      show k + 8 - 8 * front.length = 8 * 1 + (k - 8 * front.length) by omega, ← bit_drop]
    rfl

/-! ## The buffer -/

namespace Vlc

theorem Buffered.load {front bytes : Bytes} {pos : Nat} {vlc vlc' : Vlc}
    (h : Buffered (bit front) pos (8 * front.length) vlc) (room : 8 * front.length - pos + 8 * bytes.length ≤ 63)
    (buffer : vlc'.buffer = vlc.buffer |||
      BitVec.ofNat 64 (ntoh bytes) <<< (64 - 8 * bytes.length - (8 * front.length - pos)))
    (invalid : vlc'.invalidBits = vlc.invalidBits - 8 * (bytes.length : Int)) :
    Buffered (bit (front ++ bytes)) pos (8 * (front ++ bytes).length) vlc' where
  invalid_eq := by
    rw [invalid, h.invalid_eq, List.length_append]
    omega
  pos_le := by
    have := h.pos_le
    rw [List.length_append]
    omega
  full := by
    have := h.pos_le
    rw [List.length_append]
    omega
  window := by
    have number : ntoh bytes = value (bit (front ++ bytes)) (8 * front.length) (8 * bytes.length) := by
      rw [ntoh_eq_value]
      apply value_eq_value
      intro k bound
      rw [bit_append, if_neg (by omega), Nat.add_sub_cancel_left, Nat.zero_add]
    rw [buffer, List.length_append, Nat.mul_add, number]
    apply Window.append _ h.pos_le (by omega)
    exact h.window.congr (fun k _ high => (bit_append_left high).symm) rfl

/-- The bytes that come next are those. -/
def Ahead (input : Bytes) (vlc : Vlc) (bytes : Bytes) : Prop := ∃ behind, input.drop vlc.data = bytes ++ behind

theorem Ahead.length_le {input bytes : Bytes} {vlc : Vlc} (h : Ahead input vlc bytes) (some_ : 0 < bytes.length) :
    vlc.data + bytes.length ≤ input.length := by
  obtain ⟨behind, drop⟩ := h
  have length := congrArg List.length drop
  rw [List.length_drop, List.length_append] at length
  omega

theorem readBytes_bytes {input front : Bytes} {pos : Nat} (bytes : Bytes) {vlc : Vlc}
    (h : Buffered (bit front) pos (8 * front.length) vlc) (ahead : Ahead input vlc bytes)
    (room : 8 * front.length - pos + 8 * bytes.length ≤ 63) :
    ∃ vlc', vlc.readBytes input bytes.length = .ok vlc' ∧
      Buffered (bit (front ++ bytes)) pos (8 * (front ++ bytes).length) vlc' ∧ vlc'.data = vlc.data + bytes.length ∧
      vlc'.dataEnd = vlc.dataEnd ∧ vlc'.bytesLeft = vlc.bytesLeft := by
  induction bytes generalizing front vlc with
  | nil => exact ⟨vlc, rfl, by rwa [List.append_nil], rfl, rfl, rfl⟩
  | cons byte bytes ih =>
      obtain ⟨behind, drop⟩ := ahead
      have here : input[vlc.data]? = some byte := by
        rw [← Nat.add_zero vlc.data, ← List.getElem?_drop, drop]
        rfl
      have low := h.pos_le
      rw [List.length_cons] at room
      have shift : 24 + vlc.invalidBits = ((64 - 8 * 1 - (8 * front.length - pos) : Nat) : Int) := by
        rw [h.invalid_eq]
        omega
      have number : ntoh [byte] = byte.toNat := ntoh_append [] byte |>.trans (by simp [ntoh])
      have loaded : Buffered (bit (front ++ [byte])) pos (8 * (front ++ [byte]).length) { vlc with
          buffer := vlc.buffer ||| BitVec.ofNat 64 byte.toNat <<< (64 - 8 * 1 - (8 * front.length - pos))
          data := vlc.data + 1
          invalidBits := vlc.invalidBits - 8 } :=
        @Buffered.load front [byte] pos vlc _ h (by rw [List.length_singleton]; omega) (by rw [number]; rfl) rfl
      have next : Ahead input { vlc with
          buffer := vlc.buffer ||| BitVec.ofNat 64 byte.toNat <<< (64 - 8 * 1 - (8 * front.length - pos))
          data := vlc.data + 1
          invalidBits := vlc.invalidBits - 8 } bytes :=
        ⟨behind, by dsimp only; rw [← List.drop_drop, drop]; rfl⟩
      obtain ⟨vlc', done, at_, data, dataEnd, bytesLeft⟩ := ih loaded next (by
        rw [List.length_append, List.length_singleton]
        omega)
      refine ⟨vlc', ?_, ?_, ?_, dataEnd, bytesLeft⟩
      · rw [List.length_cons, readBytes, here, inBounds_some, ok_bind, shift, shiftLeft64_eq (by omega), ok_bind]
        exact done
      · rwa [List.append_assoc, List.singleton_append] at at_
      · rw [data, List.length_cons]
        dsimp only
        omega

theorem fillbits_bytes {input front rest : Bytes} {pos : Nat} {vlc : Vlc}
    (h : Buffered (bit front) pos (8 * front.length) vlc) (ahead : Ahead input vlc rest)
    (dataEnd : vlc.dataEnd = vlc.data + rest.length) (few : 8 * front.length < pos + 32) :
    ∃ vlc', vlc.fillbits input = .ok vlc' ∧
      Buffered (bit (front ++ rest.take 4)) pos (8 * (front ++ rest.take 4).length) vlc' ∧
      vlc'.data = vlc.data + (rest.take 4).length ∧ vlc'.dataEnd = vlc.dataEnd ∧ vlc'.bytesLeft = vlc.bytesLeft := by
  have invalid := h.invalid_eq
  have low := h.pos_le
  have taken := List.length_take (i := 4) (l := rest)
  rw [fillbits, if_neg (by omega)]
  by_cases dword : 4 ≤ rest.length
  · have inside := ahead.length_le (by omega)
    obtain ⟨behind, drop⟩ := ahead
    have bytes : (input.drop vlc.data).take 4 = rest.take 4 := by
      rw [drop, List.take_append_of_le_length dword]
    have shift : vlc.invalidBits = ((64 - 8 * (rest.take 4).length - (8 * front.length - pos) : Nat) : Int) := by omega
    rw [if_pos (by omega), read_eq_some (by omega), inBounds_some, ok_bind, bytes, shift, shiftLeft64_eq (by omega), ok_bind]
    refine ⟨_, rfl, ?_, by dsimp only; omega, rfl, rfl⟩
    exact h.load (by omega) rfl (by dsimp only; omega)
  · have all : rest.take 4 = rest := List.take_of_length_le (by omega)
    rw [if_neg (by omega), dataEnd, Nat.add_sub_cancel_left, all]
    obtain ⟨vlc', done, at_, data, same⟩ := readBytes_bytes rest h ahead (by omega)
    exact ⟨vlc', done, at_, data, by rw [same.1, dataEnd], same.2⟩

theorem Buffered.removebits {b : Nat → Bool} {pos limit offset : Nat} {vlc : Vlc} (h : Buffered b pos limit vlc)
    (positive : 0 < offset) (inside : pos + offset + 8 ≤ limit) :
    ∃ vlc', vlc.removebits offset 8 = .ok vlc' ∧
      Buffered (fun k => if k < pos + offset then b k else b (k + 8)) pos (limit - 8) vlc' ∧ vlc'.data = vlc.data ∧
      vlc'.dataEnd = vlc.dataEnd ∧ vlc'.bytesLeft = vlc.bytesLeft := by
  have full := h.full
  have invalid := h.invalid_eq
  have below : unsigned ((offset : Int) + (8 : Nat)) = offset + 8 := by
    rw [show (offset : Int) + (8 : Nat) = ((offset + 8 : Nat) : Int) by omega, unsigned_natCast (by omega)]
  have above : unsigned (64 - offset) = 64 - offset := by
    rw [show (64 : Int) - offset = ((64 - offset : Nat) : Int) by omega, unsigned_natCast (by omega)]
  have less : signed (vlc.invalidBits + (8 : Nat)) = vlc.invalidBits + 8 := signed_eq (by omega) (by omega)
  refine ⟨{ vlc with
      buffer := (vlc.buffer &&& BitVec.allOnes 64 >>> (offset + 8)) <<< 8 |||
        vlc.buffer &&& BitVec.allOnes 64 <<< (64 - offset)
      invalidBits := vlc.invalidBits + 8 }, ?_, ⟨?_, ?_, ?_, ?_⟩, rfl, rfl, rfl⟩
  · rw [Vlc.removebits, below, shiftRight64_eq (by omega), ok_bind, shiftLeft64_eq (by decide), ok_bind, above,
      shiftLeft64_eq (by omega), ok_bind, less]
    rfl
  · dsimp only
    omega
  · have := h.pos_le
    omega
  · omega
  · intro i bound
    rw [BitVec.getMsbD_or, BitVec.getMsbD_shiftLeft, BitVec.getMsbD_and, BitVec.getMsbD_and, BitVec.getMsbD_shiftLeft,
      BitVec.getMsbD_ushiftRight, BitVec.getMsbD_allOnes, BitVec.getMsbD_allOnes, h.window i bound]
    dsimp only
    by_cases first : i < offset
    · rw [if_pos (by omega), decide_eq_true (show pos + i < limit by omega),
        decide_eq_true (show i + (64 - offset) < 64 by omega), decide_eq_true (show pos + i < limit - 8 by omega),
        decide_eq_true (show i + 8 < offset + 8 by omega)]
      simp
    · rw [if_neg (by omega), decide_eq_false (show ¬ i + (64 - offset) < 64 by omega),
        decide_eq_false (show ¬ i + 8 < offset + 8 by omega)]
      by_cases in_ : i + 8 < 64
      · rw [h.window _ in_, decide_eq_true in_, decide_eq_true (show i + 8 - (offset + 8) < 64 by omega),
          show pos + (i + 8) = pos + i + 8 by omega]
        by_cases last : pos + i < limit - 8
        · rw [decide_eq_true last, decide_eq_true (show pos + i + 8 < limit by omega)]
          simp
        · rw [decide_eq_false last, decide_eq_false (show ¬ pos + i + 8 < limit by omega)]
          simp
      · rw [BitVec.getMsbD_of_ge _ _ (by omega), decide_eq_false (show ¬ pos + i < limit - 8 by omega)]
        simp

end Vlc

/-! ## The search -/

theorem value_removed {front rest : Bytes} {pos : Nat} (high : pos ≤ 8 * front.length + 16) :
    value (bit (front ++ 0 :: 0 :: 3 :: rest)) pos (8 * front.length + 24 - pos) % 2 ^ 24 = 3 := by
  have three : value (bit (front ++ 0 :: 0 :: 3 :: rest)) (8 * front.length) 24 = 3 := value_three front rest 0 0 3
  rcases Nat.lt_or_ge (8 * front.length) pos with gone | all
  · have cut := @value_mod (bit (front ++ 0 :: 0 :: 3 :: rest)) (8 * front.length) 24
      (8 * front.length + 24 - pos) (by omega)
    have big : 2 ^ 8 ≤ 2 ^ (8 * front.length + 24 - pos) := Nat.pow_le_pow_right (by decide) (by omega)
    rw [show 8 * front.length + (24 - (8 * front.length + 24 - pos)) = pos by omega, three,
      Nat.mod_eq_of_lt (lt_of_lt_of_le (by decide) big)] at cut
    rw [← cut]
    rfl
  · rw [value_mod (by omega), show pos + (8 * front.length + 24 - pos - 24) = 8 * front.length by omega, three]

/-- Behind `front` the buffer is searched. Three bytes of which bits are gone already must not look like two
zeros and a 3, unless they are. -/
def Told (pos : Nat) (front unit : Bytes) : Prop :=
  ∀ before a b c rest, unit = before ++ a :: b :: c :: rest → 8 * (front ++ before).length < pos →
    value (bit (front ++ unit)) pos (8 * (front ++ before).length + 24 - pos) = 3 →
    a = 0 ∧ b = 0 ∧ c = 3 ∧ pos < 8 * (front ++ before).length + 16

theorem Told.of_le {front unit : Bytes} {pos : Nat} (all : pos ≤ 8 * front.length) : Told pos front unit := by
  intro before a b c rest _ gone _
  rw [List.length_append] at gone
  omega

theorem Told.tail {front unit : Bytes} {a : UInt8} {pos : Nat} (h : Told pos front (a :: unit)) :
    Told pos (front ++ [a]) unit := by
  intro before b c d rest same
  have shift : front ++ [a] ++ before = front ++ a :: before := by simp
  have whole : front ++ [a] ++ unit = front ++ a :: unit := by simp
  rw [shift, whole]
  exact h (a :: before) b c d rest (by rw [same]; rfl)

theorem Told.found {front rest : Bytes} {a b c : UInt8} {pos : Nat} (h : Told pos front (a :: b :: c :: rest))
    (high : pos ≤ 8 * front.length + 16) :
    value (bit (front ++ a :: b :: c :: rest)) pos (8 * front.length + 24 - pos) % 2 ^ 24 = 3 ↔ a = 0 ∧ b = 0 ∧ c = 3 := by
  constructor
  · intro seen
    rcases Nat.lt_or_ge (8 * front.length) pos with gone | all
    · have short := value_lt (bit (front ++ a :: b :: c :: rest)) pos (8 * front.length + 24 - pos)
      have small : 2 ^ (8 * front.length + 24 - pos) ≤ 2 ^ 24 := Nat.pow_le_pow_right (by decide) (by omega)
      rw [Nat.mod_eq_of_lt (short.trans_le small)] at seen
      have sure := h [] a b c rest rfl (by rwa [List.append_nil]) (by rwa [List.append_nil])
      exact ⟨sure.1, sure.2.1, sure.2.2.1⟩
    · rw [value_mod (by omega), show pos + (8 * front.length + 24 - pos - 24) = 8 * front.length by omega,
        value_three] at seen
      exact eq_of_value_three seen
  · rintro ⟨rfl, rfl, rfl⟩
    exact value_removed high

namespace Rbsp
variable (ndebug : Bool) {pos : Nat}

theorem unescape_payload (unit : Bytes) {front : Bytes} {rbsp : Rbsp}
    (h : rbsp.nal.Buffered (bit (front ++ unit)) pos (8 * (front ++ unit).length)) (reach : pos ≤ 8 * front.length + 16)
    (told : Told pos front unit) (fuel : Nat) (enough : unit.length < fuel) :
    ∃ rbsp', unescape ndebug fuel (8 * front.length + 24 - pos) (8 * (front ++ unit).length - pos) rbsp = .ok rbsp' ∧
      rbsp'.nal.Buffered (bit (front ++ payload unit)) pos (8 * (front ++ payload unit).length) ∧
      rbsp'.escaped = ((behindLast unit).map fun tail => 8 * tail.length).getD rbsp.escaped ∧
      rbsp'.nal.data = rbsp.nal.data ∧ rbsp'.nal.dataEnd = rbsp.nal.dataEnd ∧
      rbsp'.nal.bytesLeft = rbsp.nal.bytesLeft := by
  induction unit using EmulationPrevention.payload.induct generalizing front rbsp fuel with
  | case1 a b c rest removed ih =>
      obtain ⟨fuel, rfl⟩ := Nat.exists_eq_add_of_lt enough
      have full := h.full
      have low := h.pos_le
      have length : (front ++ a :: b :: c :: rest).length = front.length + rest.length + 3 := by
        simp only [List.length_append, List.length_cons]
        omega
      have found := (told.found reach).mpr removed
      have here : pos < 8 * front.length + 16 := by
        rcases Nat.lt_or_ge (8 * front.length) pos with gone | all
        · have short := value_lt (bit (front ++ a :: b :: c :: rest)) pos (8 * front.length + 24 - pos)
          have small : 2 ^ (8 * front.length + 24 - pos) ≤ 2 ^ 24 := Nat.pow_le_pow_right (by decide) (by omega)
          have sure := told [] a b c rest rfl (by rwa [List.append_nil])
            (by rwa [List.append_nil, ← Nat.mod_eq_of_lt (short.trans_le small)])
          rw [List.append_nil] at sure
          exact sure.2.2.2
        · omega
      have offset : unsigned ((8 * front.length + 24 - pos : Nat) - 8) = 8 * front.length + 16 - pos := by
        rw [show ((8 * front.length + 24 - pos : Nat) : Int) - 8 = ((8 * front.length + 16 - pos : Nat) : Int) by omega]
        exact unsigned_natCast (by omega)
      obtain ⟨nal, remove, at_, data, dataEnd, bytesLeft⟩ := @Vlc.Buffered.removebits _ _ _
        (8 * front.length + 16 - pos) _ h (by omega) (by omega)
      have length' : (front ++ [a, b] ++ rest).length = front.length + rest.length + 2 := by
        simp only [List.length_append, List.length_cons, List.length_nil]
        omega
      have without (k : Nat) : (if k < pos + (8 * front.length + 16 - pos) then bit (front ++ a :: b :: c :: rest) k
          else bit (front ++ a :: b :: c :: rest) (k + 8)) = bit (front ++ [a, b] ++ rest) k := by
        have two : (front ++ [a, b]).length = front.length + 2 := by simp
        rw [← bit_without (front ++ [a, b]) rest c k, two, show front ++ [a, b] ++ c :: rest = front ++ a :: b :: c :: rest by simp,
          show pos + (8 * front.length + 16 - pos) = 8 * (front.length + 2) by omega]
      rw [funext without, show 8 * (front ++ a :: b :: c :: rest).length - 8 = 8 * (front ++ [a, b] ++ rest).length by omega]
        at at_
      obtain ⟨rbsp', done, moved, escaped, same⟩ := @ih (front ++ [a, b])
        { nal := nal, escaped := 8 * (front ++ a :: b :: c :: rest).length - pos - (8 * front.length + 24 - pos) } at_
        (by rw [List.length_append]; simp; omega)
        (Told.of_le (by rw [List.length_append]; simp; omega)) (rest.length + 3 + fuel)
        (by omega)
      refine ⟨rbsp', ?_, ?_, ?_, by rw [same.1, data], by rw [same.2.1, dataEnd], by rw [same.2.2, bytesLeft]⟩
      · rw [List.length_cons, List.length_cons, List.length_cons, unescape, if_neg (by omega),
          h.peekbits ndebug (by omega) (by omega) (.inl (by omega)), ok_bind,
          Nat.mod_mod_of_dvd _ (Nat.pow_dvd_pow 2 (by decide)), if_pos found, offset, remove, ok_bind]
        have two : (front ++ [a, b]).length = front.length + 2 := by simp
        rw [two] at done
        rw [← done]
        congr 1 <;> omega
      · rw [payload, if_pos removed]
        simpa using moved
      · rw [behindLast, if_pos removed, escaped]
        dsimp only
        cases behindLast rest with
        | none =>
            simp only [Option.map_none, Option.getD_none, Option.map_some, Option.getD_some]
            omega
        | some tail => rfl
  | case2 a b c rest kept ih =>
      obtain ⟨fuel, rfl⟩ := Nat.exists_eq_add_of_lt enough
      have full := h.full
      have low := h.pos_le
      have length : (front ++ a :: b :: c :: rest).length = front.length + rest.length + 3 := by
        simp only [List.length_append, List.length_cons]
        omega
      have next : front ++ [a] ++ b :: c :: rest = front ++ a :: b :: c :: rest := by simp
      have one : (front ++ [a]).length = front.length + 1 := by simp
      obtain ⟨rbsp', done, moved, escaped, same⟩ := @ih (front ++ [a]) rbsp (by rwa [next]) (by omega) told.tail
        (rest.length + 3 + fuel) (by simp only [List.length_cons]; omega)
      refine ⟨rbsp', ?_, ?_, ?_, same⟩
      · rw [List.length_cons, List.length_cons, List.length_cons, unescape, if_neg (by omega),
          h.peekbits ndebug (by omega) (by omega) (.inl (by omega)), ok_bind,
          Nat.mod_mod_of_dvd _ (Nat.pow_dvd_pow 2 (by decide)), if_neg fun found => kept ((told.found reach).mp found)]
        rw [next, one] at done
        rw [← done]
        congr 1
        omega
      · rw [payload, if_neg kept]
        simpa using moved
      · rw [behindLast, if_neg kept, escaped]
  | case3 short few =>
      obtain ⟨fuel, rfl⟩ := Nat.exists_eq_add_of_lt enough
      have two : short.length < 3 ∧ payload short = short ∧ behindLast short = none := by
        rcases short_cases few with rfl | ⟨a, rfl⟩ | ⟨a, b, rfl⟩
        · exact ⟨by decide, rfl, rfl⟩
        · exact ⟨by simp, rfl, rfl⟩
        · exact ⟨by simp, rfl, rfl⟩
      rw [two.2.1, two.2.2]
      refine ⟨rbsp, ?_, h, rfl, rfl, rfl, rfl⟩
      rw [unescape, if_pos]
      · rfl
      · rw [List.length_append]
        omega

end Rbsp

theorem four_counts {tail four last : Bytes} (few : tail.length ≤ 3) (count : four.length = 4)
    (clean : behindLast tail = none) (some_ : behindLast (tail ++ four) = some last) :
    tail.length + 2 ≤ (payload (tail ++ four)).length ∧
      (last ≠ [] → tail.length + 3 ≤ (payload (tail ++ four)).length) := by
  obtain ⟨d, e, f, g, rfl⟩ : ∃ d e f g, four = [d, e, f, g] := by
    match four with
    | [d, e, f, g] => exact ⟨d, e, f, g, rfl⟩
  match tail with
  | [] =>
      simp only [List.nil_append, behindLast, payload] at some_ ⊢
      split_ifs at some_ ⊢ <;> simp_all; subst some_; simp
  | [x] =>
      simp only [List.cons_append, List.nil_append, behindLast, payload] at some_ ⊢
      split_ifs at some_ ⊢ <;> simp_all <;> (subst some_; simp)
  | [x, y] =>
      simp only [List.cons_append, List.nil_append, behindLast, payload] at some_ ⊢
      split_ifs at some_ ⊢ <;> simp_all <;> (subst some_; simp)
  | [x, y, z] =>
      simp only [List.cons_append, List.nil_append, behindLast, payload] at some_ clean ⊢
      split_ifs at some_ clean ⊢ <;> simp_all <;> (subst some_; simp)

/-! ## Reading -/

/-- The reader at `pos` takes a 3 for an emulation prevention byte: it comes soon behind one, and what is left
of the two bytes before it is zero. -/
def Mistaken (unit : Bytes) (pos : Nat) : Prop :=
  ∃ before between a b after, unit = before ++ 0 :: 0 :: 3 :: (between ++ a :: b :: 3 :: after) ∧ between.length ≤ 1 ∧
    ¬ (a = 0 ∧ b = 0) ∧ 8 * ((payload (before ++ [0, 0, 3])).length + between.length) < pos ∧
    pos ≤ 8 * (payload (before ++ [0, 0, 3])).length + 16 ∧
    ∀ k, pos ≤ k → k < 8 * ((payload (before ++ [0, 0, 3])).length + between.length + 2) → bit (payload unit) k = false

/-- An emulation prevention byte is the last of these. -/
def Fresh (front : Bytes) : Prop := ∃ before, front = before ++ [0, 0, 3]

/-- So many bits in front of the read position are enough for the next search. -/
def Spare (front tail : Bytes) (bits : Nat) : Prop := 8 * tail.length ≤ bits ∨ (8 ≤ bits ∧ Fresh front)

theorem Spare.mono {front tail : Bytes} {bits more : Nat} (h : Spare front tail bits) (le : bits ≤ more) :
    Spare front tail more := by
  rcases h with all | ⟨byte, fresh⟩
  · exact .inl (by omega)
  · exact .inr ⟨by omega, fresh⟩

namespace Rbsp

/-- The reader is at bit `pos` of the payload. It has taken in `front` and `tail` of the unit, and the next search
begins with `tail`. -/
structure Reading (input unit front tail rest : Bytes) (pos : Nat) (rbsp : Rbsp) : Prop where
  unit_eq : unit = front ++ (tail ++ rest)
  restarts : ∀ more, payload (front ++ (tail ++ more)) = payload front ++ payload (tail ++ more)
  clean : behindLast tail = none
  buffered : rbsp.nal.Buffered (bit (payload front ++ tail)) pos (8 * (payload front ++ tail).length)
  ahead : rbsp.nal.Ahead input rest
  dataEnd_eq : rbsp.nal.dataEnd = rbsp.nal.data + rest.length
  short : rbsp.nal.dataEnd + rbsp.nal.bytesLeft < 2 ^ 28
  escaped : (rbsp.escaped = 8 * tail.length ∧ tail.length ≤ 3) ∨ (rest = [] ∧ rbsp.escaped = 16)
  fresh : rest ≠ [] → tail.length = 3 → Fresh front

section Reading
variable (ndebug : Bool) {input unit front tail rest : Bytes} {pos : Nat} {rbsp : Rbsp}
variable (h : Reading input unit front tail rest pos rbsp)
include h

theorem Reading.payload_eq : ∃ more, payload unit = payload front ++ tail ++ more := by
  obtain ⟨more, same⟩ := exists_payload_append tail rest
  refine ⟨more, ?_⟩
  rw [h.unit_eq, h.restarts, same, behindLast_none h.clean, List.append_assoc]

theorem Reading.length_le : (payload unit).length ≤ (payload front ++ tail).length + rest.length := by
  have shorter := length_payload_le (tail ++ rest)
  rw [h.unit_eq, h.restarts]
  simp only [List.length_append] at shorter ⊢
  omega

theorem Reading.payload_all (all : rest = []) : payload unit = payload front ++ tail := by
  subst all
  rw [h.unit_eq, h.restarts, List.append_nil, behindLast_none h.clean]

/-- What is left of bytes at the end of those taken in does not mislead the search. -/
theorem Reading.told (sure : ¬ Mistaken unit pos) (few : tail.length ≤ 3)
    (spare : Spare front tail (8 * (payload front ++ tail).length - pos)) :
    Told pos (payload front) (tail ++ rest.take 4) ∧ pos ≤ 8 * (payload front).length + 16 := by
  have low := h.buffered.pos_le
  have length : (payload front ++ tail).length = (payload front).length + tail.length := List.length_append
  rcases spare with all | ⟨byte, before, rfl⟩
  · exact ⟨Told.of_le (by omega), by omega⟩
  refine ⟨?_, by omega⟩
  intro between a b c after same gone three
  have length' : (payload (before ++ [0, 0, 3]) ++ between).length = (payload (before ++ [0, 0, 3])).length + between.length :=
    List.length_append
  have row : payload (before ++ [0, 0, 3]) ++ (tail ++ rest.take 4) =
      payload (before ++ [0, 0, 3]) ++ between ++ a :: b :: c :: after := by rw [same, List.append_assoc]
  rw [row] at three
  obtain ⟨rfl, zero⟩ := value_three_eq (by omega) (by omega) three
  have zeros : a = 0 ∧ b = 0 := by
    by_contra other
    apply sure
    refine ⟨before, between, a, b, after ++ rest.drop 4, ?_, by omega, other, by omega, by omega, ?_⟩
    · rw [h.unit_eq, ← List.take_append_drop 4 rest, ← List.append_assoc tail, List.take_append_drop, same]
      simp
    · intro k from_ below
      obtain ⟨more, same'⟩ := h.payload_eq
      calc bit (payload unit) k = bit (payload (before ++ [0, 0, 3]) ++ tail) k := by
            rw [same', bit_append_left (by omega)]
        _ = bit (payload (before ++ [0, 0, 3]) ++ (tail ++ rest.take 4)) k := by
            rw [← List.append_assoc]
            exact (bit_append_left (by omega)).symm
        _ = false := by
            rw [row]
            exact zero k from_ (by omega)
  refine ⟨zeros.1, zeros.2, rfl, ?_⟩
  obtain ⟨rfl, rfl⟩ := zeros
  cases between with
  | cons => 
      rw [List.length_cons] at length'
      omega
  | nil =>
      have short : tail.length ≠ 3 := by
        intro three
        match tail with
        | [x, y, z] =>
            have clean := h.clean
            simp only [List.cons_append, List.nil_append, List.cons.injEq] at same
            obtain ⟨rfl, rfl, rfl, -⟩ := same
            cases clean
      omega

theorem Reading.renew {rbsp' : Rbsp}
    (few : tail.length ≤ 3)
    (buffered : rbsp'.nal.Buffered (bit (payload front ++ payload (tail ++ rest.take 4))) pos
      (8 * (payload front ++ payload (tail ++ rest.take 4)).length))
    (escaped : rbsp'.escaped = ((behindLast (tail ++ rest.take 4)).map fun tail => 8 * tail.length).getD 16)
    (data : rbsp'.nal.data = rbsp.nal.data + (rest.take 4).length) (dataEnd : rbsp'.nal.dataEnd = rbsp.nal.dataEnd)
    (bytesLeft : rbsp'.nal.bytesLeft = rbsp.nal.bytesLeft) :
    ∃ front' tail', Reading input unit front' tail' (rest.drop 4) pos rbsp' ∧
      (rest.drop 4 ≠ [] → pos + 16 ≤ 8 * (payload front' ++ tail').length ∧
        Spare front' tail' (8 * (payload front' ++ tail').length - (pos + 16))) := by
  have low := h.buffered.pos_le
  have length : (payload front ++ tail).length = (payload front).length + tail.length := List.length_append
  have ahead : rbsp'.nal.Ahead input (rest.drop 4) := by
    obtain ⟨behind, drop⟩ := h.ahead
    refine ⟨behind, ?_⟩
    rw [data, ← List.drop_drop, drop]
    nth_rewrite 2 [← List.take_append_drop 4 rest]
    rw [List.append_assoc, List.drop_left]
  have dataEnd' : rbsp'.nal.dataEnd = rbsp'.nal.data + (rest.drop 4).length := by
    have := h.dataEnd_eq
    have := List.length_take (i := 4) (l := rest)
    have := List.length_drop (i := 4) (l := rest)
    omega
  have short : rbsp'.nal.dataEnd + rbsp'.nal.bytesLeft < 2 ^ 28 := by
    rw [dataEnd, bytesLeft]
    exact h.short
  have unit_eq : unit = front ++ (tail ++ (rest.take 4 ++ rest.drop 4)) := by rw [List.take_append_drop, h.unit_eq]
  cases last : behindLast (tail ++ rest.take 4) with
  | some last' =>
      have bound := length_lt_of_behindLast h.clean last
      have four := List.length_take (i := 4) (l := rest)
      obtain ⟨clean, before, same⟩ := behindLast_some last
      have whole (more : Bytes) : payload (front ++ before ++ [0, 0, 3] ++ (last' ++ more)) =
          payload (front ++ before ++ [0, 0, 3]) ++ payload (last' ++ more) := by
        rw [← payload_behind]
        simp
      have renewed : payload (front ++ before ++ [0, 0, 3]) ++ last' = payload front ++ payload (tail ++ rest.take 4) := by
        have all := whole []
        rw [List.append_nil, behindLast_none clean] at all
        rw [← all, ← h.restarts, same]
        simp
      refine ⟨front ++ before ++ [0, 0, 3], last', ⟨?_, whole, clean, ?_, ahead, dataEnd', short, .inl ⟨?_, by omega⟩,
        fun _ _ => ⟨front ++ before, rfl⟩⟩, fun more => ?_⟩
      · rw [unit_eq, ← List.append_assoc tail, same]
        simp
      · rwa [renewed]
      · rw [escaped, last]
        rfl
      · have count : (rest.take 4).length = 4 := by
          have := List.length_pos_iff.mpr more
          rw [List.length_drop] at this
          omega
        have counts := four_counts few count h.clean last
        rw [renewed, List.length_append]
        refine ⟨by omega, ?_⟩
        by_cases none_ : last' = []
        · exact .inl (by rw [none_]; simp)
        · exact .inr ⟨by have := counts.2 none_; omega, front ++ before, rfl⟩
  | none =>
      have all := behindLast_none last
      rw [all] at buffered
      by_cases depleted : rest.drop 4 = []
      · refine ⟨front, tail ++ rest.take 4, ⟨?_, fun more => ?_, last, ?_, ahead, dataEnd', short, .inr ⟨depleted, ?_⟩,
          fun more => absurd depleted more⟩, fun more => absurd depleted more⟩
        · rw [unit_eq, List.append_assoc]
        · rw [List.append_assoc]
          exact h.restarts _
        · exact buffered
        · rw [escaped, last]
          rfl
      · obtain ⟨d, e, f, g, four⟩ : ∃ d e f g, rest.take 4 = [d, e, f, g] := by
          match rest with
          | d :: e :: f :: g :: rest => exact ⟨d, e, f, g, rfl⟩
          | [] | [_] | [_, _] | [_, _, _] => exact absurd rfl depleted
        rw [four] at buffered all last unit_eq
        have first : payload (tail ++ [d, e]) = tail ++ [d, e] := by
          apply behindLast_none
          apply @behindLast_none_left (tail ++ [d, e]) [f, g]
          rwa [List.append_assoc]
        have front' : payload (front ++ (tail ++ [d, e])) = payload front ++ (tail ++ [d, e]) := by
          rw [h.restarts, first]
        have limit : (payload (front ++ (tail ++ [d, e])) ++ [f, g]).length = (payload front ++ tail).length + 4 := by
          rw [front']
          simp only [List.length_append, List.length_cons, List.length_nil]
          omega
        refine ⟨front ++ (tail ++ [d, e]), [f, g], ⟨?_, fun more => ?_, rfl, ?_, ahead, dataEnd', short,
          .inl ⟨?_, Nat.le_of_lt_succ (by simp)⟩, fun _ three => ?_⟩, fun _ => ⟨by omega, .inl ?_⟩⟩
        · rw [unit_eq]
          simp
        · have split := payload_append_two (tail ++ [d, e]) more (a := f) (b := g) (by rwa [List.append_assoc])
          calc payload (front ++ (tail ++ [d, e]) ++ ([f, g] ++ more))
              = payload (front ++ (tail ++ ([d, e, f, g] ++ more))) := by simp
            _ = payload front ++ payload (tail ++ [d, e] ++ f :: g :: more) := by rw [h.restarts]; simp
            _ = payload (front ++ (tail ++ [d, e])) ++ payload ([f, g] ++ more) := by
                rw [split, front', List.append_assoc (payload front)]
                rfl
        · rw [front']
          simpa using buffered
        · rw [escaped, four, last]
          rfl
        · simp at three
        · simp only [List.length_cons, List.length_nil]
          omega

end Reading

/-- Where the reader is between two reads. -/
def On (input unit : Bytes) (pos : Nat) (rbsp : Rbsp) : Prop :=
  ∃ front tail rest, Reading input unit front tail rest pos rbsp ∧
    (rest ≠ [] → Spare front tail (8 * (payload front ++ tail).length - pos))

section On
variable (ndebug : Bool) {input unit : Bytes} {pos : Nat} {rbsp : Rbsp}

/-- After filling there are at least 16 bits, or all that are left of the unit. -/
theorem On.fillbits (h : On input unit pos rbsp) (sure : ¬ Mistaken unit pos) (left : pos + 24 ≤ 8 * (payload unit).length) :
    ∃ rbsp' front tail rest, rbsp.fillbits ndebug input = .ok rbsp' ∧ Reading input unit front tail rest pos rbsp' ∧
      pos + 16 ≤ 8 * (payload front ++ tail).length ∧
      (rest ≠ [] → Spare front tail (8 * (payload front ++ tail).length - (pos + 16))) := by
  obtain ⟨front, tail, rest, h, spare⟩ := h
  have low := h.buffered.pos_le
  have full := h.buffered.full
  have within := h.length_le
  have length : (payload front ++ tail).length = (payload front).length + tail.length := List.length_append
  have depleted (none_ : rest = []) : pos + 24 ≤ 8 * (payload front ++ tail).length := by
    rwa [← h.payload_all none_]
  rw [Rbsp.fillbits, h.buffered.validBits]
  by_cases many : 8 * (payload front ++ tail).length - pos ≥ 32
  · rw [if_pos many]
    refine ⟨rbsp, front, tail, rest, rfl, h, by omega, fun more => ?_⟩
    rcases h.escaped with ⟨-, few⟩ | ⟨none_, -⟩
    · by_cases three : tail.length = 3
      · exact .inr ⟨by omega, h.fresh more three⟩
      · exact .inl (by omega)
    · exact absurd none_ more
  rw [if_neg many]
  obtain ⟨nal, fill, at_, data, dataEnd, bytesLeft⟩ := Vlc.fillbits_bytes h.buffered h.ahead h.dataEnd_eq (by omega)
  have taken := List.length_take (i := 4) (l := rest)
  have length' : (payload front ++ tail ++ rest.take 4).length = (payload front ++ tail).length + (rest.take 4).length :=
    List.length_append
  have dataEnd' := h.dataEnd_eq
  have short := h.short
  rw [fill, ok_bind, at_.bitsLeft (by omega) (by rw [dataEnd, bytesLeft]; exact short), ok_bind, if_neg (by omega),
    at_.validBits]
  rcases h.escaped with ⟨escaped, few⟩ | ⟨none_, escaped⟩
  · have spare' : Spare front tail (8 * (payload front ++ tail).length - pos) := by
      by_cases none_ : rest = []
      · have := depleted none_
        exact .inl (by omega)
      · exact spare none_
    obtain ⟨told, reach⟩ := h.told sure few spare'
    have first : unsigned ((8 * (payload front ++ tail).length - pos : Nat) - rbsp.escaped + 24) =
        8 * (payload front).length + 24 - pos := by
      rw [show ((8 * (payload front ++ tail).length - pos : Nat) : Int) - rbsp.escaped + 24 =
        ((8 * (payload front).length + 24 - pos : Nat) : Int) by omega]
      exact unsigned_natCast (by omega)
    rw [List.append_assoc] at at_ length' ⊢
    obtain ⟨rbsp', done, moved, escaped', data', dataEnd', bytesLeft'⟩ := @unescape_payload ndebug pos (tail ++ rest.take 4)
      (payload front) { nal := nal, escaped := 16 } at_ reach told 9 (by rw [List.length_append]; omega)
    obtain ⟨front', tail', reading, enough⟩ := h.renew few moved escaped' (data'.trans data) (dataEnd'.trans dataEnd)
      (bytesLeft'.trans bytesLeft)
    refine ⟨rbsp', front', tail', rest.drop 4, ?_, reading, ?_, fun more => (enough more).2⟩
    · rw [first]
      exact done
    · by_cases all : rest.drop 4 = []
      · rw [← reading.payload_all all]
        omega
      · exact (enough all).1
  · subst none_
    have more := depleted rfl
    refine ⟨{ nal := nal, escaped := 16 }, front, tail, [], ?_, ?_, by omega, fun more => absurd rfl more⟩
    · have first : unsigned ((8 * (payload front ++ tail).length - pos : Nat) - rbsp.escaped + 24) =
          8 * (payload front ++ tail).length - pos + 8 := by
        rw [show ((8 * (payload front ++ tail).length - pos : Nat) : Int) - rbsp.escaped + 24 =
          ((8 * (payload front ++ tail).length - pos + 8 : Nat) : Int) by omega]
        exact unsigned_natCast (by omega)
      rw [first, unescape, if_pos (by simp only [List.take_nil, List.append_nil]; omega)]
      rfl
    · have same : nal.data = rbsp.nal.data := data
      refine ⟨h.unit_eq, h.restarts, h.clean, ?_, ?_, ?_, ?_, .inr ⟨rfl, rfl⟩, fun more => absurd rfl more⟩
      · simpa using at_
      · obtain ⟨behind, drop⟩ := h.ahead
        exact ⟨behind, by rw [same, drop]⟩
      · rw [dataEnd, same]
        exact h.dataEnd_eq
      · rw [dataEnd, bytesLeft]
        exact h.short

theorem Reading.take {front tail rest : Bytes} {nal : Vlc} {n : Nat} (h : Reading input unit front tail rest pos rbsp)
    (at_ : nal.Buffered (bit (payload front ++ tail)) (pos + n) (8 * (payload front ++ tail).length))
    (data : nal.data = rbsp.nal.data) (dataEnd : nal.dataEnd = rbsp.nal.dataEnd)
    (bytesLeft : nal.bytesLeft = rbsp.nal.bytesLeft) :
    Reading input unit front tail rest (pos + n) { rbsp with nal := nal } where
  unit_eq := h.unit_eq
  restarts := h.restarts
  clean := h.clean
  buffered := at_
  ahead := by
    obtain ⟨behind, drop⟩ := h.ahead
    exact ⟨behind, by rw [data, drop]⟩
  dataEnd_eq := by
    rw [dataEnd, data]
    exact h.dataEnd_eq
  short := by
    rw [dataEnd, bytesLeft]
    exact h.short
  escaped := h.escaped
  fresh := h.fresh

theorem Reading.bit_eq {front tail rest : Bytes} {k : Nat} (h : Reading input unit front tail rest pos rbsp)
    (inside : k < 8 * (payload front ++ tail).length) : bit (payload front ++ tail) k = bit (payload unit) k := by
  obtain ⟨more, same⟩ := h.payload_eq
  rw [same, bit_append_left inside]

theorem On.u (h : On input unit pos rbsp) {n : Nat} (few : n ≤ 16) (sure : 0 < n → ¬ Mistaken unit pos)
    (left : pos + 24 ≤ 8 * (payload unit).length) :
    ∃ rbsp', rbsp.u ndebug input n = .ok (rbsp', value (bit (payload unit)) pos n) ∧ On input unit (pos + n) rbsp' := by
  unfold Rbsp.u
  by_cases none_ : n = 0
  · subst none_
    exact ⟨rbsp, rfl, h⟩
  obtain ⟨filled, front, tail, rest, fill, reading, enough, spare⟩ := h.fillbits ndebug (sure (by omega)) left
  obtain ⟨nal, get, moved, data, dataEnd, bytesLeft, -⟩ :=
    reading.buffered.getUimsbf ndebug (n := n) (by omega) (by omega) (by omega)
  have number : value (bit (payload front ++ tail)) pos n = value (bit (payload unit)) pos n :=
    value_congr fun k _ below => reading.bit_eq (by omega)
  refine ⟨{ filled with nal := nal }, ?_, front, tail, rest, reading.take moved data dataEnd bytesLeft,
    fun more => (spare more).mono (by omega)⟩
  rw [if_neg none_, fillbitsFor, fill, ok_bind, if_neg (by omega)]
  simp only [pure, Except.pure, ok_bind, get, number]

/-- A code is read in two parts, and the buffer is filled before each. -/
def Clear (unit : Bytes) (pos next : Nat) : Prop :=
  ¬ Mistaken unit pos ∧ (pos + 1 < next → ¬ Mistaken unit ((pos + next + 1) / 2))

theorem On.ue (h : On input unit pos rbsp) {number next : Nat} (code : Code 15 (bit (payload unit)) pos number next)
    (clear : Clear unit pos next) (left : next + 24 ≤ 8 * (payload unit).length) :
    ∃ rbsp', rbsp.ue ndebug input = .ok (rbsp', number) ∧ On input unit next rbsp' := by
  obtain ⟨zeros, short, blank, one, rfl, rfl⟩ := code
  obtain ⟨sure, sure'⟩ := clear
  obtain ⟨filled, front, tail, rest, fill, reading, enough, spare⟩ := h.fillbits ndebug sure (by omega)
  obtain ⟨nal, counted, moved, data, dataEnd, bytesLeft⟩ := countZeros_buffered ndebug reading.buffered zeros 65
    (fun k bound => by rw [reading.bit_eq (by omega)]; exact blank k bound)
    (by rw [reading.bit_eq (by omega)]; exact one) (by omega) (by omega) 0
  have leading : On input unit (pos + zeros + 1) { filled with nal := nal } :=
    ⟨front, tail, rest, @Reading.take input unit pos filled front tail rest nal (zeros + 1) reading moved data dataEnd bytesLeft,
      fun more => (spare more).mono (by omega)⟩
  obtain ⟨rbsp', get, on⟩ := leading.u ndebug (n := zeros) (by omega)
    (fun some_ => by
      have sure' := sure' (by omega)
      rwa [show (pos + (pos + (2 * zeros + 1)) + 1) / 2 = pos + zeros + 1 by omega] at sure')
    (by omega)
  have small : 2 ^ zeros ≤ 2 ^ 15 := Nat.pow_le_pow_right (by decide) short
  have least : Rbsp.one zeros = .ok (2 ^ zeros) := if_pos (by omega)
  have bound := value_lt (bit (payload unit)) (pos + zeros + 1) zeros
  refine ⟨rbsp', ?_, ?_⟩
  · rw [Rbsp.ue, fill, ok_bind, counted, ok_bind]
    dsimp only
    rw [Nat.zero_add, least, ok_bind, get, ok_bind, Nat.mod_eq_of_lt (by omega)]
    rfl
  · rwa [show pos + (2 * zeros + 1) = pos + zeros + 1 + zeros by omega]

end On
end Rbsp
end Chiaki
