import Chiaki.Bitstream.Unit

/-!
# Rewriting the reference of a slice

A header in which nothing is escaped is read bit by bit, and the flags that are rewritten are those that
are read.
-/

namespace Chiaki
open Memory BitString

/-! ## Headers -/

/-- `first_slice_segment_in_pic_flag`, `slice_pic_parameter_set_id` and, unless the flag is set,
`slice_segment_address`. -/
def SpellsStart (b : Nat → Bool) (pos next : Nat) : Prop :=
  ∃ id at_, Code 15 b (pos + 1) id at_ ∧
    ((b pos = true ∧ next = at_) ∨ (b pos = false ∧ ∃ address, Code 15 b at_ address next))

/-- The header of a P slice up to the entries of its own reference picture set. -/
def Spells (sps : Nat) (b : Nat → Bool) (pos count next : Nat) : Prop :=
  ∃ type lsb positive positives, SpellsStart b pos type ∧ Code 15 b type 1 lsb ∧ b (lsb + (sps + 4)) = false ∧
    Code 15 b (lsb + (sps + 4) + 1) count positive ∧ Code 15 b positive positives next

/-- Entries from `pos` on, each a code and its flag. -/
def Entries (b : Nat → Bool) : (pos : Nat) → (flags : List Nat) → Prop
  | _, [] => True
  | pos, flag :: flags => (∃ delta, Code 15 b pos delta flag) ∧ Entries b (flag + 1) flags

section Congr
variable {b b' : Nat → Bool}

theorem SpellsStart.lt {pos next : Nat} (h : SpellsStart b pos next) : pos + 1 < next := by
  obtain ⟨id, at_, code, ⟨-, rfl⟩ | ⟨-, address, code'⟩⟩ := h
  · exact code.lt
  · exact code.lt.trans code'.lt

theorem SpellsStart.congr {pos next : Nat} (h : SpellsStart b pos next) (same : ∀ k, pos ≤ k → k < next → b k = b' k) :
    SpellsStart b' pos next := by
  obtain ⟨id, at_, code, ⟨set, rfl⟩ | ⟨clear, address, code'⟩⟩ := h
  · have lt := code.lt
    refine ⟨id, next, code.congr fun k low high => same k (by omega) high, .inl ⟨?_, rfl⟩⟩
    rw [← same pos le_rfl (by omega), set]
  · have lt := code.lt
    have lt' := code'.lt
    refine ⟨id, at_, code.congr fun k low high => same k (by omega) (by omega), .inr ⟨?_, address,
      code'.congr fun k low high => same k (by omega) high⟩⟩
    rw [← same pos le_rfl (by omega), clear]

theorem Spells.lt {sps pos count next : Nat} (h : Spells sps b pos count next) : pos + 8 < next := by
  obtain ⟨type, lsb, positive, positives, start, code, -, code', code''⟩ := h
  have := start.lt
  have := code.lt
  have := code'.lt
  have := code''.lt
  omega

theorem Spells.congr {sps pos count next : Nat} (h : Spells sps b pos count next)
    (same : ∀ k, pos ≤ k → k < next → b k = b' k) : Spells sps b' pos count next := by
  obtain ⟨type, lsb, positive, positives, start, code, own, code', code''⟩ := h
  have lt := start.lt
  have lt' := code.lt
  have lt'' := code'.lt
  have lt''' := code''.lt
  refine ⟨type, lsb, positive, positives, start.congr fun k low high => same k low (by omega),
    code.congr fun k low high => same k (by omega) (by omega), ?_,
    code'.congr fun k low high => same k (by omega) (by omega),
    code''.congr fun k low high => same k (by omega) high⟩
  rw [← same _ (by omega) (by omega), own]

theorem Entries.lt {pos : Nat} {flags : List Nat} (h : Entries b pos flags) : ∀ flag ∈ flags, pos < flag := by
  induction flags generalizing pos with
  | nil => simp
  | cons flag flags ih =>
      obtain ⟨⟨delta, code⟩, rest⟩ := h
      have lt := code.lt
      intro flag' member
      rcases List.mem_cons.mp member with rfl | member
      · exact lt
      · have := ih rest flag' member
        omega

theorem Entries.congr {pos stop : Nat} {flags : List Nat} (h : Entries b pos flags) (below : ∀ flag ∈ flags, flag < stop)
    (same : ∀ k, pos ≤ k → k < stop → k ∉ flags → b k = b' k) : Entries b' pos flags := by
  induction flags generalizing pos with
  | nil => trivial
  | cons flag flags ih =>
      obtain ⟨⟨delta, code⟩, rest⟩ := h
      obtain ⟨first, later⟩ := List.forall_mem_cons.mp below
      have lt := code.lt
      refine ⟨⟨delta, code.congr fun k low high => same k low (by omega) fun member => ?_⟩, ih rest later ?_⟩
      · rcases List.mem_cons.mp member with rfl | member
        · omega
        · have := rest.lt k member
          omega
      · intro k low high missing
        apply same k (by omega) high
        rintro (_ | ⟨_, member⟩)
        · omega
        · exact missing member

end Congr

/-! ## Reading a header -/

section Read
variable (ndebug : Bool) {input : Bytes} {b : Nat → Bool} {start limit pos : Nat} {rbsp : Rbsp}
variable (h : rbsp.At input b pos) (plain : Plain b start limit) (low : 8 * start ≤ pos)
include h plain low

theorem skipCodes_one {number next : Nat} (code : Code 15 b pos number next) (search : next + 63 < 8 * (limit + 1))
    (inside : next ≤ 8 * rbsp.nal.dataEnd) :
    ∃ rbsp', skipCodes ndebug input 1 rbsp = .ok rbsp' ∧ rbsp'.At input b next ∧
      rbsp'.nal.dataEnd = rbsp.nal.dataEnd := by
  obtain ⟨rbsp', read, at_, dataEnd⟩ := Rbsp.ue_at ndebug h plain low code search inside
  refine ⟨rbsp', ?_, at_, dataEnd⟩
  rw [skipCodes, read, ok_bind]
  rfl

theorem skipFields_one (width : Nat) (few : width ≤ 16) (search : pos + 63 < 8 * (limit + 1))
    (inside : pos + width ≤ 8 * rbsp.nal.dataEnd) :
    ∃ rbsp', skipFields ndebug input [width] rbsp = .ok rbsp' ∧ rbsp'.At input b (pos + width) ∧
      rbsp'.nal.dataEnd = rbsp.nal.dataEnd := by
  obtain ⟨rbsp', read, at_, dataEnd⟩ := Rbsp.u_at ndebug h plain low search few inside
  refine ⟨rbsp', ?_, at_, dataEnd⟩
  rw [skipFields, read, ok_bind]
  rfl

theorem flag_at (search : pos + 63 < 8 * (limit + 1)) (inside : pos < 8 * rbsp.nal.dataEnd) :
    ∃ rbsp', rbsp.u ndebug input 1 = .ok (rbsp', (b pos).toNat) ∧ rbsp'.At input b (pos + 1) ∧
      rbsp'.nal.dataEnd = rbsp.nal.dataEnd := by
  obtain ⟨rbsp', read, at_, dataEnd⟩ := Rbsp.u_at ndebug h plain low search (n := 1) (by decide) inside
  rw [value_one] at read
  exact ⟨rbsp', read, at_, dataEnd⟩

theorem beforeSliceType_at {next : Nat} (spells : SpellsStart b pos next) (search : next + 63 < 8 * (limit + 1))
    (inside : next ≤ 8 * rbsp.nal.dataEnd) :
    ∃ rbsp', beforeSliceType ndebug input 1 rbsp = .ok rbsp' ∧ rbsp'.At input b next ∧
      rbsp'.nal.dataEnd = rbsp.nal.dataEnd := by
  have lt := spells.lt
  obtain ⟨id, at_, code, rest⟩ := spells
  have here : at_ ≤ next := by
    rcases rest with ⟨-, rfl⟩ | ⟨-, address, code'⟩
    · exact le_rfl
    · exact code'.lt.le
  have lt' := code.lt
  obtain ⟨rbsp1, first, at1, end1⟩ := flag_at ndebug h plain low (by omega) (by omega)
  obtain ⟨rbsp2, skip, at2, end2⟩ := skipCodes_one ndebug at1 plain (by omega) code (by omega) (by omega)
  rw [beforeSliceType, first, ok_bind]
  dsimp only
  rw [noOutputOfPriorPics, if_neg (by decide)]
  simp only [pure, Except.pure, ok_bind, skip]
  rcases rest with ⟨set, rfl⟩ | ⟨clear, address, code'⟩
  · rw [set, if_neg (by decide)]
    exact ⟨rbsp2, rfl, at2, end2.trans end1⟩
  · obtain ⟨rbsp3, skip', at3, end3⟩ := skipCodes_one ndebug at2 plain (by omega) code' (by omega) (by omega)
    rw [clear, if_pos (show false.toNat = 0 from rfl)]
    exact ⟨rbsp3, skip', at3, by omega⟩

/-- From the picture order count on: the counts of a set that is the slice's own. -/
theorem shortTermRefPicSet_at {bitstream : Bitstream} {count positive positives next : Nat}
    (small : bitstream.sps ≤ 12) (own : b (pos + (bitstream.sps + 4)) = false)
    (negative : Code 15 b (pos + (bitstream.sps + 4) + 1) count positive) (few : count ≤ 16)
    (code : Code 15 b positive positives next) (search : next + 63 < 8 * (limit + 1))
    (inside : next ≤ 8 * rbsp.nal.dataEnd) :
    ∃ rbsp', shortTermRefPicSet ndebug input bitstream rbsp = .ok (rbsp', some count) ∧ rbsp'.At input b next ∧
      rbsp'.nal.dataEnd = rbsp.nal.dataEnd := by
  have lt := negative.lt
  have lt' := code.lt
  have width : (bitstream.sps + 4) % 2 ^ 32 = bitstream.sps + 4 := Nat.mod_eq_of_lt (by omega)
  obtain ⟨rbsp1, lsb, at1, end1⟩ := skipFields_one ndebug h plain low (bitstream.sps + 4) (by omega)
    (by omega) (by omega)
  obtain ⟨rbsp2, fromSps, at2, end2⟩ := flag_at ndebug at1 plain (by omega) (by omega) (by omega)
  obtain ⟨rbsp3, number, at3, end3⟩ := Rbsp.ue_at ndebug at2 plain (by omega) negative (by omega) (by omega)
  obtain ⟨rbsp4, skip, at4, end4⟩ := skipCodes_one ndebug at3 plain (by omega) code (by omega) (by omega)
  rw [own] at fromSps
  refine ⟨rbsp4, ?_, at4, by omega⟩
  rw [shortTermRefPicSet, width, lsb, ok_bind, fromSps, ok_bind]
  dsimp only
  rw [if_neg (by decide), number, ok_bind]
  dsimp only
  rw [if_neg (by omega), skip, ok_bind]
  rfl

theorem firstUsed_at {earlier : List Nat} {last : Nat} (entries : Entries b pos (earlier ++ [last]))
    (clear : ∀ flag ∈ earlier, b flag = false) (set : b last = true) (search : last + 63 < 8 * (limit + 1))
    (inside : last < 8 * rbsp.nal.dataEnd) (left i : Nat) (enough : earlier.length < left) :
    firstUsed ndebug input left i rbsp = .ok (some (i + earlier.length)) := by
  induction earlier generalizing pos rbsp left i with
  | nil =>
      obtain ⟨left, rfl⟩ := Nat.exists_eq_add_of_lt enough
      obtain ⟨⟨delta, code⟩, -⟩ := entries
      have lt := code.lt
      obtain ⟨rbsp1, skip, at1, end1⟩ := Rbsp.ue_at ndebug h plain low code (by omega) (by omega)
      obtain ⟨rbsp2, flag, -, -⟩ := flag_at ndebug at1 plain (by omega) (by omega) (by omega)
      rw [set] at flag
      rw [firstUsed, skip, ok_bind]
      dsimp only
      rw [flag, ok_bind]
      rfl
  | cons first earlier ih =>
      obtain ⟨left, rfl⟩ := Nat.exists_eq_add_of_lt enough
      obtain ⟨⟨delta, code⟩, rest⟩ := entries
      obtain ⟨now, later⟩ := List.forall_mem_cons.mp clear
      have lt := code.lt
      have behind := rest.lt last (by simp)
      obtain ⟨rbsp1, skip, at1, end1⟩ := Rbsp.ue_at ndebug h plain low code (by omega) (by omega)
      obtain ⟨rbsp2, flag, at2, end2⟩ := flag_at ndebug at1 plain (by omega) (by omega) (by omega)
      rw [now] at flag
      rw [firstUsed, skip, ok_bind]
      dsimp only
      rw [flag, ok_bind]
      dsimp only
      rw [if_neg (by decide), ih at2 (by omega) rest later (by omega) _ _ (by simp; omega), List.length_cons]
      congr 2
      omega

end Read

/-! ## Writing a flag -/

theorem bit_write {buf buf' data : Bytes} {offset : Nat} (written : write buf offset data = some buf') (k : Nat) :
    bit buf' k = if 8 * offset ≤ k ∧ k < 8 * (offset + data.length) then bit data (k - 8 * offset) else bit buf k := by
  unfold write at written
  split at written
  · rename_i inside
    obtain rfl := Option.some.inj written
    have front : (buf.take offset).length = offset := by
      rw [List.length_take]
      omega
    rw [bit_middle, front]
    split
    · rfl
    · split
      · rename_i low
        exact bit_take low
      · rw [bit_drop]
        congr 1
        omega
  · cases written

theorem bit_htonl {n k : Nat} (inside : k < 32) : bit (htonl n) k = n.testBit (31 - k) := by
  have number := ntoh_eq_value (htonl n)
  rw [ntoh_htonl, length_htonl] at number
  have row := @testBit_value (bit (htonl n)) 0 (8 * 4) (31 - k)
  rw [← number, Nat.testBit_mod_two_pow, decide_eq_true (by omega), Bool.true_and, Bool.true_and,
    show 0 + (8 * 4 - 1 - (31 - k)) = k by omega] at row
  exact row.symm

theorem bit_dwords (x : BitVec 64) {k : Nat} (inside : k < 64) :
    bit (htonl (x.toNat / 2 ^ 32) ++ htonl (x.toNat % 2 ^ 32)) k = x.getMsbD k := by
  rw [bit_append, length_htonl, BitVec.getMsbD_eq_getLsbD, decide_eq_true inside, Bool.true_and, BitVec.getLsbD]
  split
  · rename_i high
    rw [bit_htonl high, Nat.testBit_div_two_pow]
    congr 1
    omega
  · rename_i low
    rw [bit_htonl (by omega), Nat.testBit_mod_two_pow, decide_eq_true (by omega), Bool.true_and]
    congr 1
    omega

theorem testBit_ntoh {bytes : Bytes} {n j : Nat} (length : bytes.length = n) (inside : j < 8 * n) :
    (ntoh bytes).testBit j = bit bytes (8 * n - 1 - j) := by
  rw [ntoh_eq_value, length, testBit_value, decide_eq_true inside, Bool.true_and, Nat.zero_add]

theorem getMsbD_dwords {dwords : Bytes} (length : dwords.length = 8) {k : Nat} (inside : k < 64) :
    (BitVec.ofNat 64 (ntoh (dwords.drop 4)) ||| BitVec.ofNat 64 (ntoh (dwords.take 4)) <<< 32).getMsbD k =
      bit dwords k := by
  have front : (dwords.take 4).length = 4 := by rw [List.length_take, length]; rfl
  have back : (dwords.drop 4).length = 4 := by rw [List.length_drop, length]
  have small : ntoh (dwords.drop 4) < 2 ^ 32 := by
    have bound := ntoh_lt (dwords.drop 4)
    rwa [back] at bound
  rw [BitVec.getMsbD_or, BitVec.getMsbD_shiftLeft, BitVec.getMsbD_eq_getLsbD, BitVec.getMsbD_eq_getLsbD,
    BitVec.getLsbD_ofNat, BitVec.getLsbD_ofNat, decide_eq_true inside, decide_eq_true (show 64 - 1 - k < 64 by omega)]
  by_cases high : k < 32
  · have none : (ntoh (dwords.drop 4)).testBit (64 - 1 - k) = false :=
      Nat.testBit_lt_two_pow (small.trans_le (Nat.pow_le_pow_right (by decide) (by omega)))
    rw [none, decide_eq_true (show k + 32 < 64 by omega), decide_eq_true (show 64 - 1 - (k + 32) < 64 by omega),
      testBit_ntoh front (by omega), bit_take (by omega)]
    simp only [Bool.true_and, Bool.and_false, Bool.false_or]
    congr 1
    omega
  · rw [decide_eq_false (show ¬ k + 32 < 64 by omega), testBit_ntoh back (by omega), bit_drop]
    simp only [Bool.true_and, Bool.false_and, Bool.or_false]
    congr 1
    omega

theorem getMsbD_flag (x : BitVec 64) (set : Bool) {e k : Nat} (small : e < 64) (inside : k < 64) :
    (if set = true then x ||| (1 : BitVec 64) <<< e else x &&& ~~~((1 : BitVec 64) <<< e)).getMsbD k =
      if k = 63 - e then set else x.getMsbD k := by
  have mask : ((1 : BitVec 64) <<< e).getMsbD k = decide (k = 63 - e) := by
    rw [BitVec.getMsbD_shiftLeft, show (1 : BitVec 64) = 1#64 from rfl, BitVec.getMsbD_one, Bool.eq_iff_iff]
    simp only [Bool.and_eq_true, decide_eq_true_iff]
    omega
  cases set with
  | true =>
      rw [if_pos rfl, BitVec.getMsbD_or, mask]
      split <;> simp [*]
  | false =>
      rw [if_neg (by decide), BitVec.getMsbD_and, BitVec.getMsbD_not, mask, decide_eq_true inside]
      split <;> simp [*]

theorem storeDwords {data : Bytes} {stop pos : Nat} {set : Bool} {x : BitVec 64} (far : 8 ≤ stop)
    (inside : stop ≤ data.length) (low : 8 * (stop - 8) ≤ pos) (high : pos < 8 * stop)
    (bits : ∀ k < 64, x.getMsbD k = if k = pos - 8 * (stop - 8) then set else bit data (8 * (stop - 8) + k)) :
    ∃ data', inBounds (write data (stop - 8) (htonl (x.toNat / 2 ^ 32) ++ htonl (x.toNat % 2 ^ 32))) = .ok data' ∧
      data'.length = data.length ∧ ∀ k, bit data' k = if k = pos then set else bit data k := by
  obtain ⟨data', written⟩ := exists_write data (htonl (x.toNat / 2 ^ 32) ++ htonl (x.toNat % 2 ^ 32)) (stop - 8)
    (by rw [List.length_append, length_htonl, length_htonl]; omega)
  refine ⟨data', by rw [written, inBounds_some], length_of_write written, fun k => ?_⟩
  rw [bit_write written, List.length_append, length_htonl, length_htonl]
  split
  · rename_i block
    rw [bit_dwords x (by omega), bits _ (by omega), show 8 * (stop - 8) + (k - 8 * (stop - 8)) = k by omega]
    exact if_congr (by omega) rfl rfl
  · rename_i outside
    rw [if_neg (by omega)]

/-- The flag at the read position gets its value, and nothing else changes. -/
theorem writeFlag_at {data : Bytes} {b : Nat → Bool} {pos : Nat} {nal : Vlc} (h : nal.At data b pos)
    (inside : pos < 8 * nal.data) (far : 8 ≤ nal.data) (set : Bool) :
    ∃ data', writeFlag nal set data = .ok data' ∧ data'.length = data.length ∧
      ∀ k, bit data' k = if k = pos then set else bit data k := by
  have full := h.full
  have invalid := h.invalid_eq
  have within := h.data_le
  have inLength := h.end_le
  have length : ((data.drop (nal.data - 8)).take 8).length = 8 := by
    rw [List.length_take, List.length_drop]
    omega
  have before : dwordsBefore nal data = .ok ((data.drop (nal.data - 8)).take 8) := by
    rw [dwordsBefore, if_neg (by omega), read_eq_some (by omega)]
    rfl
  have shift : (64 - 1 - (64 - (32 - nal.invalidBits)) : Int) = ((8 * nal.data - pos - 1 : Nat) : Int) := by omega
  rw [writeFlag, before, ok_bind, shift, shiftLeft64_eq (by omega), ok_bind]
  apply storeDwords far (by omega) (by omega) inside
  intro k bound
  rw [getMsbD_flag _ _ (by omega) bound, getMsbD_dwords length bound, bit_take (by omega), bit_drop]
  exact if_congr (by omega) rfl rfl

theorem Vlc.At.reinput {data data' : Bytes} {b : Nat → Bool} {pos : Nat} {nal : Vlc} (h : nal.At data b pos)
    (length : data'.length = data.length) (same : ∀ k, 8 * nal.data ≤ k → bit data' k = bit data k) :
    nal.At data' b pos where
  data_le := h.data_le
  end_le := by
    rw [length]
    exact h.end_le
  invalid_eq := h.invalid_eq
  pos_le := h.pos_le
  full := h.full
  window := h.window
  feeds k low high := by
    rw [same k low]
    exact h.feeds k low high
  behind := h.behind
  short := h.short

/-- The flags of the entries up to the one wanted are written, and the loop says whether it got there. -/
theorem rewriteFlags_at (ndebug : Bool) {b : Nat → Bool} {start limit : Nat} (plain : Plain b start limit)
    (referenceFrame left i : Nat) {flags : List Nat} {pos : Nat} {rbsp : Rbsp} {data : Bytes}
    (h : rbsp.At data b pos) (low : 8 * start ≤ pos) (far : 57 ≤ pos) (entries : Entries b pos flags)
    (search : ∀ flag ∈ flags, flag + 63 < 8 * (limit + 1)) (inside : ∀ flag ∈ flags, flag < 8 * rbsp.nal.dataEnd)
    (wanted : i ≤ referenceFrame) (count : flags.length = min (referenceFrame + 1 - i) left) :
    ∃ data', rewriteFlags ndebug referenceFrame left i rbsp data = .ok (data', decide (referenceFrame < i + left)) ∧
      data'.length = data.length ∧
      ∀ k, bit data' k = if k ∈ flags then decide (flags[referenceFrame - i]? = some k) else bit data k := by
  induction flags generalizing pos left i rbsp data with
  | nil =>
      rw [List.length_nil] at count
      obtain rfl : left = 0 := by omega
      refine ⟨data, ?_, rfl, fun k => by rw [if_neg (by simp)]⟩
      rw [rewriteFlags, decide_eq_false (by omega)]
      rfl
  | cons flag flags ih =>
      rw [List.length_cons] at count
      obtain ⟨left, rfl⟩ := Nat.exists_eq_add_of_lt (show 0 < left by omega)
      rw [Nat.zero_add] at count ⊢
      obtain ⟨⟨delta, code⟩, rest⟩ := entries
      obtain ⟨near, later⟩ := List.forall_mem_cons.mp search
      obtain ⟨here, behind⟩ := List.forall_mem_cons.mp inside
      have lt := code.lt
      obtain ⟨rbsp1, skip, at1, end1⟩ := Rbsp.ue_at ndebug h plain low code near here.le
      have ahead : flag < 8 * rbsp1.nal.data := by
        rcases at1.searched with depleted | ⟨-, some_⟩ <;> omega
      have posLe := at1.nal.pos_le
      obtain ⟨data1, written, length, bits⟩ := writeFlag_at at1.nal ahead (by omega) (decide (i = referenceFrame))
      rw [rewriteFlags, skip, ok_bind]
      dsimp only
      rw [written, ok_bind]
      by_cases found : i = referenceFrame
      · subst found
        obtain rfl : flags = [] := List.eq_nil_of_length_eq_zero (by omega)
        refine ⟨data1, ?_, length, fun k => ?_⟩
        · rw [if_pos rfl, decide_eq_true (by omega)]
          rfl
        · rw [bits k]
          by_cases same : k = flag
          · simp [same]
          · simp [same]
      · have at1' : rbsp1.At data1 b flag :=
          ⟨at1.nal.reinput length fun k outside => by rw [bits k, if_neg (by omega)], at1.escaped_le, at1.searched⟩
        obtain ⟨rbsp2, skip', at2, end2⟩ := flag_at ndebug at1' plain (by omega) near (by omega)
        obtain ⟨data', done, length', bits'⟩ := ih left (i + 1) at2 (by omega) (by omega) rest later
          (fun flag' member => by have := behind flag' member; omega) (by omega) (by omega)
        refine ⟨data', ?_, length'.trans length, fun k => ?_⟩
        · rw [if_neg found, skip', ok_bind]
          dsimp only
          rw [done, show i + 1 + left = i + (left + 1) by omega]
        · have new : flag ∉ flags := fun member => by
            have := rest.lt flag member
            omega
          rw [bits' k, bits k, decide_eq_false found, show referenceFrame - i = referenceFrame - (i + 1) + 1 by omega,
            List.getElem?_cons_succ]
          by_cases member : k ∈ flags
          · rw [if_pos member, if_pos (List.mem_cons_of_mem _ member)]
          · rw [if_neg member]
            by_cases same : k = flag
            · subst same
              rw [if_pos rfl, if_pos List.mem_cons_self, eq_comm, decide_eq_false_iff_not]
              exact fun there => member (List.mem_of_getElem? there)
            · rw [if_neg same, if_neg (by simp [same, member])]

end Chiaki
