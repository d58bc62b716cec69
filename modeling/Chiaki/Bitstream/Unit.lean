import Chiaki.Bitstream.Cursor

/-!
# The unit

From the start of the data over the start code and the header of the NAL unit to its payload.
-/

namespace Chiaki
open Memory BitString

/-- The row as far as byte `stop`. -/
def upTo (stop : Nat) (b : Nat → Bool) (k : Nat) : Bool := decide (k < 8 * stop) && b k

theorem upTo_of_lt {stop k : Nat} {b : Nat → Bool} (inside : k < 8 * stop) : upTo stop b k = b k := by
  rw [upTo, decide_eq_true inside, Bool.true_and]

theorem upTo_of_le {stop k : Nat} {b : Nat → Bool} (outside : 8 * stop ≤ k) : upTo stop b k = false := by
  rw [upTo, decide_eq_false (by omega), Bool.false_and]

/-- Where a row is cut off there is no start code and no emulation prevention byte. -/
theorem Plain.upTo {b : Nat → Bool} {start limit : Nat} (h : Plain b start limit) (stop : Nat) :
    Plain (upTo stop b) start limit := by
  intro k low high
  by_cases inside : k + 3 ≤ stop
  · have same : value (Chiaki.upTo stop b) (8 * k) 24 = value b (8 * k) 24 :=
      value_congr fun i _ bound => upTo_of_lt (by omega)
    rw [same]
    exact h k low high
  · have last : value (Chiaki.upTo stop b) (8 * k) 24 % 2 ^ 8 = 0 := by
      rw [value_mod (by decide)]
      exact value_eq_zero fun i bound _ => upTo_of_le (by omega)
    omega

/-- From byte `start` on no start code is up to `limit`. -/
def Unbroken (b : Nat → Bool) (start limit : Nat) : Prop :=
  ∀ k, start ≤ k → k + 3 ≤ limit → value b (8 * k) 24 ≠ 1

theorem Plain.unbroken {b : Nat → Bool} {start limit : Nat} (h : Plain b start limit) : Unbroken b start limit :=
  fun k low high => (h k low high).2

/-- The first start code within reach of `skip_startcode` is at byte `s`. -/
structure StartcodeAt (data : Bytes) (s : Nat) : Prop where
  near : s ≤ 64
  inside : s + 4 ≤ data.length
  here : value (bit data) (8 * s) 32 = 1
  first : ∀ p < s, value (bit data) (8 * p) 32 ≠ 1

section Start
variable (ndebug : Bool) {data : Bytes}

theorem seekStartcode_at {s : Nat} (code : StartcodeAt data s) (left p : Nat) (turn : p + left = 64) (before : p ≤ s)
    {vlc : Vlc} (h : vlc.At data (bit data) (8 * p)) (enough : 8 * p + 32 ≤ 8 * vlc.data ∨ vlc.data = vlc.dataEnd)
    (dataEnd : vlc.dataEnd = data.length) (bytesLeft : vlc.bytesLeft = data.length) :
    ∃ vlc', seekStartcode ndebug data left vlc = .ok vlc' ∧ vlc'.At data (bit data) (8 * s) ∧
      (8 * s + 32 ≤ 8 * vlc'.data ∨ vlc'.data = vlc'.dataEnd) ∧
      vlc'.dataEnd = data.length ∧ vlc'.bytesLeft = data.length := by
  have inside := code.inside
  induction left generalizing p vlc with
  | zero =>
      have near := code.near
      obtain rfl : p = s := by omega
      exact ⟨vlc, rfl, h, enough, dataEnd, bytesLeft⟩
  | succ left ih =>
      have posLe := h.pos_le
      have small : value (bit data) (8 * p) 32 % 2 ^ 32 = value (bit data) (8 * p) 32 :=
        Nat.mod_eq_of_lt (value_lt _ _ _)
      rw [seekStartcode, h.bitsLeft, ok_bind, if_neg (by omega), h.peekbits ndebug (by decide) (by decide) enough, ok_bind,
        small]
      by_cases found : p = s
      · subst found
        rw [if_pos code.here]
        exact ⟨vlc, rfl, h, enough, dataEnd, bytesLeft⟩
      · obtain ⟨eaten, eat, moved, -, dataEnd1, bytesLeft1, -⟩ :=
          h.eatbits ndebug (n := 8) (by decide) (by omega)
        obtain ⟨filled, fill, at_, same⟩ := Vlc.fillbits_at moved
        rw [if_neg (code.first p (by omega)), eat, ok_bind, fill, ok_bind]
        exact ih (p + 1) (by omega) (by omega) (by rwa [Nat.mul_add]) (by rw [Nat.mul_add]; exact same.enough)
          (by rw [same.dataEnd_eq, dataEnd1, dataEnd]) (by rw [same.bytesLeft_eq, bytesLeft1, bytesLeft])

theorem skipStartcode_at {s : Nat} (code : StartcodeAt data s) {vlc : Vlc} (h : vlc.At data (bit data) 0)
    (dataEnd : vlc.dataEnd = data.length) (bytesLeft : vlc.bytesLeft = data.length) :
    ∃ vlc', skipStartcode ndebug data vlc = .ok (vlc', true) ∧ vlc'.At data (bit data) (8 * (s + 4)) ∧
      (8 * (s + 4) + 32 ≤ 8 * vlc'.data ∨ vlc'.data = vlc'.dataEnd) ∧
      vlc'.dataEnd = data.length ∧ vlc'.bytesLeft = data.length := by
  have inside := code.inside
  obtain ⟨filled, fill, at_, same⟩ := Vlc.fillbits_at h
  obtain ⟨found, seek, at_, enough, dataEnd, bytesLeft⟩ := seekStartcode_at ndebug code 64 0 rfl (Nat.zero_le _)
    at_ same.enough (same.dataEnd_eq.trans dataEnd) (same.bytesLeft_eq.trans bytesLeft)
  have here : value (bit data) (8 * s) 32 % 2 ^ 32 = 1 := by
    rw [code.here]
    decide
  obtain ⟨eaten, eat, moved, -, dataEnd1, bytesLeft1, -⟩ :=
    at_.eatbits ndebug (n := 32) (by decide) (by omega)
  obtain ⟨full, fill', at', same'⟩ := Vlc.fillbits_at moved
  refine ⟨full, ?_, by rwa [Nat.mul_add], by rw [Nat.mul_add]; exact same'.enough,
    by rw [same'.dataEnd_eq, dataEnd1, dataEnd], by rw [same'.bytesLeft_eq, bytesLeft1, bytesLeft]⟩
  rw [skipStartcode, fill, ok_bind, seek, ok_bind, at_.peekbits ndebug (by decide) (by decide) enough, ok_bind, here,
    if_neg (by decide), eat, ok_bind, fill', ok_bind]
  rfl

theorem nalHeaderH264_at {q : Nat} {vlc : Vlc} (h : vlc.At data (bit data) (8 * q))
    (inside : 8 * q + 8 ≤ 8 * vlc.data) :
    ∃ vlc', nalHeaderH264 ndebug vlc = .ok (vlc', value (bit data) (8 * q + 3) 5) ∧
      vlc'.At data (bit data) (8 * (q + 1)) ∧ vlc'.data = vlc.data ∧ vlc'.dataEnd = vlc.dataEnd ∧
      vlc'.bytesLeft = vlc.bytesLeft := by
  obtain ⟨vlc1, bit1, at1, data1, end1, left1, -⟩ := h.eatbits ndebug (n := 1) (by decide) (by omega)
  obtain ⟨vlc2, idc, at2, data2, end2, left2, -⟩ := at1.eatbits ndebug (n := 2) (by decide) (by omega)
  obtain ⟨vlc3, type, at3, data3, end3, left3, -⟩ :=
    at2.getUimsbf ndebug (n := 5) (by decide) (by decide) (by omega)
  refine ⟨vlc3, ?_, ?_, by omega, by omega, by omega⟩
  · rw [nalHeaderH264, bit1, ok_bind, idc, ok_bind, type]
  · rwa [show 8 * (q + 1) = 8 * q + 1 + 2 + 5 by omega]

theorem nalHeaderH265_at {q : Nat} {vlc : Vlc} (h : vlc.At data (bit data) (8 * q))
    (inside : 8 * q + 16 ≤ 8 * vlc.data) :
    ∃ vlc', nalHeaderH265 ndebug vlc = .ok (vlc', value (bit data) (8 * q + 1) 6) ∧
      vlc'.At data (bit data) (8 * (q + 2)) ∧ vlc'.data = vlc.data ∧ vlc'.dataEnd = vlc.dataEnd ∧
      vlc'.bytesLeft = vlc.bytesLeft := by
  obtain ⟨vlc1, bit1, at1, data1, end1, left1, -⟩ := h.eatbits ndebug (n := 1) (by decide) (by omega)
  obtain ⟨vlc2, type, at2, data2, end2, left2, -⟩ :=
    at1.getUimsbf ndebug (n := 6) (by decide) (by decide) (by omega)
  obtain ⟨vlc3, layer, at3, data3, end3, left3, -⟩ := at2.eatbits ndebug (n := 6) (by decide) (by omega)
  obtain ⟨vlc4, temporal, at4, data4, end4, left4, -⟩ := at3.eatbits ndebug (n := 3) (by decide) (by omega)
  refine ⟨vlc4, ?_, ?_, by omega, by omega, by omega⟩
  · rw [nalHeaderH265, bit1, ok_bind, type, ok_bind]
    dsimp only
    rw [layer, ok_bind, temporal, ok_bind]
    rfl
  · rwa [show 8 * (q + 2) = 8 * q + 1 + 6 + 6 + 3 by omega]

end Start

/-! ## The end of the unit -/

section Search
variable (ndebug : Bool) {input : Bytes} {b : Nat → Bool}

/-- Where a search for a byte stands: at a byte that was found, or at the end of what was searched. -/
structure Searched (input : Bytes) (b : Nat → Bool) (j : Nat) (vlc vlc' : Vlc) (found : Bool) : Prop where
  at_ : ∃ j', j ≤ j' ∧ vlc'.At input b (8 * j') ∧
    (found = true → j' < vlc'.data ∧ (8 * j' + 32 ≤ 8 * vlc'.data ∨ vlc'.data = vlc'.dataEnd)) ∧
    (found = false → j' = vlc'.data)
  dataEnd_eq : vlc'.dataEnd = vlc.dataEnd
  bytesLeft_eq : vlc'.bytesLeft = vlc.bytesLeft

/-- Before the filling that follows, a byte that was found need not have others behind it. -/
theorem searchBuffer_at (wanted fuel : Nat) {j : Nat} {vlc : Vlc} (h : vlc.At input b (8 * j))
    (enough : 8 * vlc.data - 8 * j < 8 * fuel) :
    ∃ vlc' found j', vlc.searchBuffer ndebug wanted fuel = .ok (vlc', found) ∧ j ≤ j' ∧ vlc'.At input b (8 * j') ∧
      (found = true → j' < vlc'.data) ∧ (found = false → j' = vlc'.data) ∧
      vlc'.dataEnd = vlc.dataEnd ∧ vlc'.bytesLeft = vlc.bytesLeft := by
  induction fuel generalizing j vlc with
  | zero => omega
  | succ fuel ih =>
      have posLe := h.pos_le
      rw [Vlc.searchBuffer, h.validBits]
      by_cases empty : 8 * vlc.data - 8 * j = 0
      · rw [if_pos empty]
        exact ⟨vlc, false, j, rfl, le_rfl, h, fun found => by (cases found), fun _ => by omega, rfl, rfl⟩
      rw [if_neg empty, h.peekbits ndebug (by decide) (by decide) (.inl (by omega)), ok_bind]
      by_cases there : value b (8 * j) 8 % 2 ^ 32 = wanted
      · rw [if_pos there]
        exact ⟨vlc, true, j, rfl, le_rfl, h, fun _ => by omega, fun missing => by (cases missing), rfl, rfl⟩
      obtain ⟨eaten, eat, moved, data, dataEnd, bytesLeft, -⟩ :=
        h.eatbits ndebug (n := 8) (by decide) (by omega)
      obtain ⟨vlc', found, j', done, later, at_, yes, no, dataEnd', bytesLeft'⟩ :=
        @ih (j + 1) eaten (by rwa [Nat.mul_add]) (by rw [data]; omega)
      rw [if_neg there, eat, ok_bind]
      exact ⟨vlc', found, j', done, by omega, at_, yes, no, by rw [dataEnd', dataEnd], by rw [bytesLeft', bytesLeft]⟩

theorem Vlc.At.skip {vlc : Vlc} (h : vlc.At input b (8 * vlc.data)) (inside : vlc.data < vlc.dataEnd) :
    Vlc.At input b (8 * (vlc.data + 1)) { vlc with data := vlc.data + 1 } where
  data_le := inside
  end_le := h.end_le
  invalid_eq := by
    have eq := h.invalid_eq
    dsimp only
    omega
  pos_le := le_rfl
  full := by dsimp only; omega
  window i bound := by
    rw [h.window i bound, decide_eq_false (by omega), decide_eq_false (by dsimp only; omega), Bool.false_and,
      Bool.false_and]
  feeds k low high := h.feeds k (by dsimp only at low; omega) high
  behind := h.behind
  short := h.short

theorem searchBytes_at (wanted left : Nat) {vlc : Vlc} (h : vlc.At input b (8 * vlc.data))
    (rest : vlc.dataEnd = vlc.data + left) :
    ∃ vlc' found, vlc.searchBytes input wanted left = .ok (vlc', found) ∧
      Searched input b vlc.data vlc vlc' found := by
  induction left generalizing vlc with
  | zero =>
      exact ⟨vlc, false, rfl, ⟨vlc.data, le_rfl, h, fun found => by (cases found), fun _ => rfl⟩, rfl, rfl⟩
  | succ left ih =>
      obtain ⟨byte, here, -⟩ := h.byte_eq (by omega)
      rw [Vlc.searchBytes, here, inBounds_some, ok_bind]
      by_cases there : byte.toNat = wanted
      · obtain ⟨aligned, align, at_, data, dataEnd, bytesLeft, -⟩ := Vlc.readBytes_at
          (min ((4 - (vlc.address + vlc.data) % 4) % 4) (vlc.dataEnd - vlc.data)) h (by omega) (by omega)
        obtain ⟨filled, fill, at_, same⟩ := Vlc.fillbits_at at_
        have first : vlc.data < filled.data := by
          have grows := same.data_le
          have dataEnd' := same.dataEnd_eq
          rcases same.enough with many | depleted <;> omega
        rw [if_pos there, Vlc.alignDataPtr, align, ok_bind, fill, ok_bind]
        exact ⟨filled, true, rfl, ⟨vlc.data, le_rfl, at_, fun _ => ⟨first, same.enough⟩, fun missing => by (cases missing)⟩,
          by rw [same.dataEnd_eq, dataEnd], by rw [same.bytesLeft_eq, bytesLeft]⟩
      · obtain ⟨vlc', found, done, ⟨j', later, at_, yes, no⟩, dataEnd, bytesLeft⟩ :=
          @ih { vlc with data := vlc.data + 1 } (h.skip (by omega)) (by dsimp only; omega)
        rw [if_neg there]
        exact ⟨vlc', found, done, ⟨j', by dsimp only at later; omega, at_, yes, no⟩, dataEnd, bytesLeft⟩

theorem searchByte_at (wanted : Nat) {j : Nat} {vlc : Vlc} (h : vlc.At input b (8 * j)) :
    ∃ vlc' found, vlc.searchByte ndebug input wanted = .ok (vlc', found) ∧ Searched input b j vlc vlc' found := by
  have full := h.full
  have checked : (ndebug || decide (vlc.validBits % 8 = 0)) = true := by
    rw [h.validBits, decide_eq_true (by omega), Bool.or_true]
  obtain ⟨vlc1, found, j1, buffer, later, at_, yes, no, dataEnd, bytesLeft⟩ :=
    searchBuffer_at ndebug wanted 9 h (by omega)
  rw [Vlc.searchByte, checked, assert_true, ok_bind, buffer, ok_bind]
  dsimp only
  cases found with
  | true =>
      have first := yes rfl
      obtain ⟨filled, fill, at', same⟩ := Vlc.fillbits_at at_
      have grows := same.data_le
      rw [if_pos rfl, fill, ok_bind]
      exact ⟨filled, true, rfl, ⟨j1, later, at', fun _ => ⟨by omega, same.enough⟩, fun missing => by (cases missing)⟩,
        by rw [same.dataEnd_eq, dataEnd], by rw [same.bytesLeft_eq, bytesLeft]⟩
  | false =>
      obtain rfl := no rfl
      have within := at_.data_le
      obtain ⟨vlc', found, done, ⟨j', later', at', yes', no'⟩, dataEnd', bytesLeft'⟩ :=
        searchBytes_at wanted (vlc1.dataEnd - vlc1.data) at_ (by omega)
      rw [if_neg (by decide)]
      exact ⟨vlc', found, done, ⟨j', by omega, at', yes', no'⟩, by rw [dataEnd', dataEnd], by rw [bytesLeft', bytesLeft]⟩

theorem atStartcode_at {start limit j : Nat} {nal : Vlc} (h : nal.At input b (8 * j)) (unbroken : Unbroken b start limit)
    (low : start ≤ j) (enough : 8 * j + 32 ≤ 8 * nal.data ∨ nal.data = nal.dataEnd) :
    ∃ found, Rbsp.atStartcode ndebug nal = .ok found ∧ (found = true → limit < j + 4) := by
  have enough' : 8 * j + 24 ≤ 8 * nal.data ∨ nal.data = nal.dataEnd := enough.imp_left fun many => by omega
  have small {n : Nat} (short : n ≤ 32) : value b (8 * j) n % 2 ^ 32 = value b (8 * j) n :=
    Nat.mod_eq_of_lt ((value_lt _ _ _).trans_le (Nat.pow_le_pow_right (by decide) short))
  rw [Rbsp.atStartcode, h.peekbits ndebug (by decide) (by decide) enough', ok_bind, small (by decide)]
  by_cases three : value b (8 * j) 24 = 1
  · rw [if_pos three]
    refine ⟨true, rfl, fun _ => ?_⟩
    by_contra far
    exact unbroken j low (by omega) three
  · rw [if_neg three, h.peekbits ndebug (by decide) (by decide) enough, ok_bind, small (by decide)]
    refine ⟨_, rfl, fun four => ?_⟩
    have four : value b (8 * j) 32 = 1 := of_decide_eq_true four
    by_contra far
    have last : value b (8 * (j + 1)) 24 = 1 := by
      have lower := @value_mod b (8 * j) 32 24 (by decide)
      rw [four, show 8 * j + (32 - 24) = 8 * (j + 1) by omega] at lower
      exact lower.symm
    exact unbroken (j + 1) (by omega) (by omega) last

theorem limit_at {m j : Nat} {vlc : Vlc} (h : vlc.At input b (8 * m)) (far : m + 8 ≤ j) (inside : j < vlc.dataEnd) :
    ∃ vlc', vlc.limit ndebug input (8 * (j - m)) = .ok vlc' ∧ vlc'.At input (upTo j b) (8 * m) ∧ vlc'.dataEnd = j ∧
      (8 * m + 16 ≤ 8 * vlc.data ∨ vlc.data = vlc.dataEnd → 8 * m + 16 ≤ 8 * vlc'.data) := by
  have posLe := h.pos_le
  have full := h.full
  obtain ⟨filled, fill, at_, same⟩ := Vlc.fillbits_at h
  have grows := same.data_le
  have full' := at_.full
  have posLe' := at_.pos_le
  have dataEnd := same.dataEnd_eq
  have checked : (ndebug || decide (8 * (j - m) ≤
      (vlc.dataEnd - vlc.data + vlc.bytesLeft) * 8 + (8 * vlc.data - 8 * m))) = true := by
    have within := h.data_le
    rw [decide_eq_true (by omega), Bool.or_true]
  have whole : (ndebug || decide ((8 * (j - m) - (8 * filled.data - 8 * m)) % 8 = 0)) = true := by
    rw [decide_eq_true (by omega), Bool.or_true]
  have stop : filled.data + (8 * (j - m) - (8 * filled.data - 8 * m)) / 8 = j := by omega
  refine ⟨{ filled with dataEnd := j, bytesLeft := 0 }, ?_, ?_, rfl, fun some_ => by dsimp only; omega⟩
  · rw [Vlc.limit, h.bitsLeft, ok_bind, checked, assert_true, ok_bind, fill, ok_bind, at_.validBits, if_neg (by omega),
      whole, assert_true, ok_bind]
    dsimp only
    rw [if_pos (by omega), stop]
    rfl
  · exact ⟨by dsimp only; omega, by have := at_.end_le; dsimp only; omega, at_.invalid_eq, posLe', full',
      at_.window.congr (fun k _ below => (upTo_of_lt (by omega)).symm) rfl,
      fun k low high => by
        dsimp only at low high
        rw [upTo_of_lt high]
        exact at_.feeds k low (by omega),
      fun k outside => upTo_of_le outside, by have := at_.short; dsimp only; omega⟩

theorem findEnd_at (fuel : Nat) {start limit m j : Nat} {vlc nal : Vlc} (h : vlc.At input b (8 * m))
    (unbroken : Unbroken b start limit) (low : start ≤ m) (far : m + 12 ≤ limit) (behind : m ≤ j)
    (at_ : nal.At input b (8 * j)) (dataEnd : nal.dataEnd = vlc.dataEnd) (bytesLeft : nal.bytesLeft = vlc.bytesLeft)
    (enough : vlc.dataEnd + 1 < j + fuel) (first : 8 * m + 16 ≤ 8 * vlc.data ∨ vlc.data = vlc.dataEnd) :
    ∃ vlc' stop, Rbsp.findEnd ndebug input ((vlc.dataEnd - vlc.data + vlc.bytesLeft) * 8 + (8 * vlc.data - 8 * m)) vlc
        fuel nal = .ok vlc' ∧ vlc'.At input (upTo stop b) (8 * m) ∧ vlc'.dataEnd = stop ∧
      (vlc' = vlc ∨ limit < stop + 4) ∧
      (8 * m + 16 ≤ 8 * vlc'.data ∨ vlc'.data = vlc'.dataEnd) := by
  induction fuel generalizing j nal with
  | zero =>
      have within := at_.data_le
      have posLe := at_.pos_le
      omega
  | succ fuel ih =>
      obtain ⟨nal1, found, search, ⟨j1, later, at1, yes, -⟩, dataEnd1, bytesLeft1⟩ :=
        searchByte_at ndebug 0 at_
      rw [Rbsp.findEnd, search, ok_bind]
      dsimp only
      cases found with
      | false =>
          refine ⟨vlc, vlc.dataEnd, rfl, ?_, rfl, .inl rfl, first⟩
          exact ⟨h.data_le, h.end_le, h.invalid_eq, h.pos_le, h.full,
            h.window.congr (fun k _ below => (upTo_of_lt (by have := h.data_le; omega)).symm) rfl,
            fun k low' high => by rw [upTo_of_lt high, h.feeds k low' high], fun k outside => upTo_of_le outside, h.short⟩
      | true =>
          obtain ⟨inside, filled⟩ := yes rfl
          have within := at1.data_le
          have posLe := at1.pos_le
          have posLe' := h.pos_le
          have within' := h.data_le
          obtain ⟨next, ask, near⟩ := atStartcode_at ndebug at1 unbroken (by omega) filled
          rw [if_neg (by decide), ask, ok_bind]
          cases next with
          | true =>
              have close := near rfl
              have short := at1.short
              have distance : unsigned (((vlc.dataEnd - vlc.data + vlc.bytesLeft) * 8 + (8 * vlc.data - 8 * m) : Nat) -
                  ((nal1.dataEnd - nal1.data + nal1.bytesLeft) * 8 + (8 * nal1.data - 8 * j1) : Nat)) =
                  8 * (j1 - m) := by
                rw [show (((vlc.dataEnd - vlc.data + vlc.bytesLeft) * 8 + (8 * vlc.data - 8 * m) : Nat) : Int) -
                  ((nal1.dataEnd - nal1.data + nal1.bytesLeft) * 8 + (8 * nal1.data - 8 * j1) : Nat) =
                  ((8 * (j1 - m) : Nat) : Int) by omega]
                exact unsigned_natCast (by omega)
              obtain ⟨vlc', done, cut, stop, some_⟩ := limit_at ndebug (j := j1) h (by omega) (by omega)
              rw [if_pos rfl, at1.bitsLeft, ok_bind, distance]
              exact ⟨vlc', j1, done, cut, stop, .inr close, .inl (some_ first)⟩
          | false =>
              obtain ⟨eaten, eat, moved, data, dataEnd2, bytesLeft2, -⟩ :=
                at1.eatbits ndebug (n := 8) (by decide) (by omega)
              rw [if_neg (by decide), eat, ok_bind]
              exact ih (j := j1 + 1) (by omega) (by rwa [Nat.mul_add]) (by omega) (by omega) (by omega)

theorem unescapeFirst_plain {start limit m : Nat} {nal : Vlc} (h : nal.At input b (8 * m))
    (plain : Plain b start limit) (low : start ≤ m) (inside : nal.data ≤ limit) (fuel i : Nat) (three : 24 ≤ i)
    (aligned : i % 8 = 0) (enough : 8 * nal.data - 8 * m < i + 8 * fuel) :
    Rbsp.unescapeFirst ndebug (8 * nal.data - 8 * m) (fuel + 1) i nal = .ok nal := by
  induction fuel generalizing i with
  | zero =>
      rw [Rbsp.unescapeFirst, if_pos (by omega)]
      rfl
  | succ fuel ih =>
      rw [Rbsp.unescapeFirst]
      by_cases done : i > 8 * nal.data - 8 * m
      · rw [if_pos done]
        rfl
      have full := h.full
      have posLe := h.pos_le
      rw [if_neg done, h.peekbits ndebug (by omega) (by omega) (.inl (by omega)), ok_bind]
      have window : value b (8 * m) i % 2 ^ 32 % 2 ^ 24 = value b (8 * (m + i / 8 - 3)) 24 := by
        rw [Nat.mod_mod_of_dvd _ (Nat.pow_dvd_pow 2 (by decide)), value_mod three]
        congr 1
        omega
      rw [window, if_neg (plain _ (by omega) (by omega)).1]
      exact ih (i + 8) (by omega) (by omega) (by omega)

/-- The payload begins at byte `m`. What is read of it ends at the next start code. -/
theorem Rbsp.init_at {start limit m : Nat} {vlc : Vlc} (h : vlc.At input b (8 * m)) (plain : Plain b start limit)
    (low : start ≤ m) (far : m + 12 ≤ limit) (whole : vlc.dataEnd = input.length)
    (first : 8 * m + 16 ≤ 8 * vlc.data ∨ vlc.data = vlc.dataEnd) :
    ∃ rbsp stop, Rbsp.init ndebug input vlc = .ok rbsp ∧ rbsp.At input (upTo stop b) (8 * m) ∧
      rbsp.nal.dataEnd = stop ∧ (stop = input.length ∨ limit < stop + 4) := by
  obtain ⟨nal, stop, found, at_, dataEnd, end_, first'⟩ := findEnd_at ndebug (input.length + 9) h plain.unbroken
    low far le_rfl h rfl rfl (by omega) first
  have full := at_.full
  have unescaped := unescapeFirst_plain ndebug at_ (plain.upTo stop) low (by omega) 8 24 (by decide) (by decide)
    (by omega)
  have posLe := at_.pos_le
  refine ⟨{ nal := nal, escaped := if nal.validBits ≥ 16 then 16 else if nal.validBits ≥ 8 then 8 else 0 }, stop,
    ?_, ⟨at_, ?_, ?_⟩, dataEnd, end_.imp_left fun same => by rw [← dataEnd, same, whole]⟩
  · rw [Rbsp.init, h.bitsLeft, ok_bind, found, ok_bind, at_.validBits, unescaped, ok_bind, at_.validBits]
    rfl
  · dsimp only
    split
    · exact le_rfl
    · split <;> decide
  · dsimp only
    rw [at_.validBits]
    rcases first' with some_ | depleted
    · exact .inr ⟨if_pos (by omega), some_⟩
    · exact .inl depleted

end Search
end Chiaki
