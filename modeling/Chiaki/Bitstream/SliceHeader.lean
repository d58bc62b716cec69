import Chiaki.Bitstream.Escaped
import Chiaki.Bitstream.Unit

/-!
# The header of a P slice

A slice header of H.264 is a row of syntax elements, escaped and put behind a start code. `slice_h264` reads it
back, but it reads `num_ref_idx_active_override_flag` twice.
-/

namespace Chiaki
open Memory BitString EmulationPrevention

/-! ## The beginning of a unit -/

theorem Vlc.Buffered.shift {b b' : Nat → Bool} {pos limit pos' limit' : Nat} {vlc : Vlc} (h : Buffered b pos limit vlc)
    (le : pos' ≤ limit') (same : limit' - pos' = limit - pos) (bits : ∀ i < limit - pos, b (pos + i) = b' (pos' + i)) :
    Buffered b' pos' limit' vlc where
  invalid_eq := by
    have low := h.pos_le
    rw [h.invalid_eq]
    omega
  pos_le := le
  full := by
    have full := h.full
    omega
  window i bound := by
    have low := h.pos_le
    rw [h.window i bound]
    by_cases inside : pos + i < limit
    · rw [bits i (by omega), decide_eq_true inside, decide_eq_true (by omega)]
    · rw [decide_eq_false inside, decide_eq_false (by omega), Bool.false_and, Bool.false_and]

theorem exists_three {input : Bytes} {k : Nat} (inside : k + 3 ≤ input.length) :
    ∃ a b c rest, input.drop k = a :: b :: c :: rest ∧
      value (bit input) (8 * k) 24 = a.toNat * 2 ^ 16 + b.toNat * 2 ^ 8 + c.toNat := by
  obtain ⟨a, b, c, rest, drop⟩ : ∃ a b c rest, input.drop k = a :: b :: c :: rest := by
    match same : input.drop k with
    | a :: b :: c :: rest => exact ⟨a, b, c, rest, rfl⟩
    | [] | [_] | [_, _] =>
        have length := congrArg List.length same
        simp only [List.length_drop, List.length_cons, List.length_nil] at length
        omega
  have front : (input.take k).length = k := by
    rw [List.length_take]
    omega
  have number := value_three (input.take k) rest a b c
  rw [front, ← drop, List.take_append_drop] at number
  exact ⟨a, b, c, rest, drop, number⟩

/-- Bytes in which nothing is left out look like no emulation prevention sequence anywhere. -/
theorem value_ne_of_clean {input : Bytes} {m stop k : Nat} (clean : behindLast ((input.drop m).take (stop - m)) = none)
    (inside : stop ≤ input.length) (low : m ≤ k) (high : k + 3 ≤ stop) : value (bit input) (8 * k) 24 ≠ 3 := by
  intro three
  obtain ⟨a, b, c, rest, drop, number⟩ := exists_three (show k + 3 ≤ input.length by omega)
  obtain ⟨rfl, rfl, rfl⟩ := eq_of_value_three (number.symm.trans three)
  have front : (input.take k).length = k := by
    rw [List.length_take]
    omega
  have split : input = input.take k ++ 0 :: 0 :: 3 :: rest := by rw [← drop, List.take_append_drop]
  have unit : input.drop m = (input.take k).drop m ++ 0 :: 0 :: 3 :: rest := by
    conv_lhs => rw [split]
    rw [List.drop_append_of_le_length (by omega)]
  obtain ⟨n, count⟩ := Nat.exists_eq_add_of_le high
  have taken : (input.drop m).take (stop - m) = (input.take k).drop m ++ 0 :: 0 :: 3 :: rest.take n := by
    rw [unit, List.take_append, List.take_of_length_le (by rw [List.length_drop]; omega), List.length_drop, front,
      show stop - m - (k - m) = n + 3 by omega]
    rfl
  rw [taken] at clean
  exact behindLast_ne_none _ _ clean

theorem Unbroken.of_not_infix {input : Bytes} {m : Nat} (none_ : ¬ [0, 0, 1] <:+: input.drop m) (limit : Nat) :
    Unbroken (bit input) m limit := by
  intro k low _ one
  by_cases inside : k + 3 ≤ input.length
  · obtain ⟨a, b, c, rest, drop, number⟩ := exists_three inside
    have boundC := c.toNat_lt
    obtain rfl : a = 0 := UInt8.toNat_inj.mp (show a.toNat = 0 by omega)
    obtain rfl : b = 0 := UInt8.toNat_inj.mp (show b.toNat = 0 by omega)
    obtain rfl : c = 1 := UInt8.toNat_inj.mp (show c.toNat = 1 by omega)
    apply none_
    have here : [0, 0, 1] <:+: input.drop k := ⟨[], rest, drop.symm⟩
    rw [show input.drop k = (input.drop m).drop (k - m) by rw [List.drop_drop, Nat.add_sub_cancel' low]] at here
    exact here.trans (List.drop_suffix _ _).isInfix
  · have last := @value_mod (bit input) (8 * k) 24 8 (by decide)
    rw [one, value_eq_zero fun i from_ _ => bit_of_length_le (by omega)] at last
    cases last

/-- The unit begins at byte `m` and is all that is left. Its first bytes are in the buffer, none of them escaped. -/
theorem Rbsp.init_on (ndebug : Bool) {input : Bytes} {m : Nat} {vlc : Vlc} (h : vlc.At input (bit input) (8 * m))
    (unbroken : Unbroken (bit input) m (input.length + 8))
    (clean : behindLast ((input.drop m).take (vlc.data - m)) = none) (whole : vlc.dataEnd = input.length)
    (enough : m + 4 ≤ input.length) (first : 8 * m + 16 ≤ 8 * vlc.data ∨ vlc.data = vlc.dataEnd) :
    ∃ rbsp, Rbsp.init ndebug input vlc = .ok rbsp ∧ On input (input.drop m) 0 rbsp := by
  have posLe := h.pos_le
  have full := h.full
  have dataLe := h.data_le
  obtain ⟨nal, stop, found, at_, dataEnd, end_, -⟩ := findEnd_at ndebug (input.length + 9) h unbroken le_rfl (by omega)
    le_rfl h rfl rfl (by omega) first
  obtain rfl : nal = vlc := by
    rcases end_ with same | far
    · exact same
    · have := at_.end_le
      omega
  have plain : Plain (bit input) m nal.data := fun k low high =>
    ⟨value_ne_of_clean clean (by omega) low high, unbroken k low (by omega)⟩
  have unescaped := unescapeFirst_plain ndebug at_ (plain.upTo stop) le_rfl le_rfl 8 24 (by decide) (by decide) (by omega)
  have two : m + 2 ≤ nal.data := by omega
  have length : ((input.drop m).take (nal.data - m)).length = nal.data - m := by
    rw [List.length_take, List.length_drop]
    omega
  obtain ⟨front, x, y, taken⟩ : ∃ front x y, (input.drop m).take (nal.data - m) = front ++ [x, y] := by
    refine ⟨((input.drop m).take (nal.data - m)).take (nal.data - m - 2), ?_⟩
    have rest : (((input.drop m).take (nal.data - m)).drop (nal.data - m - 2)).length = 2 := by
      rw [List.length_drop]
      omega
    obtain ⟨x, y, same⟩ := List.length_eq_two.mp rest
    exact ⟨x, y, by rw [← same, List.take_append_drop]⟩
  rw [taken] at clean length
  have front' : payload front = front := behindLast_none (behindLast_none_left clean)
  rw [List.length_append, List.length_cons, List.length_singleton] at length
  refine ⟨{ nal := nal, escaped := 16 }, ?_, front, [x, y], (input.drop m).drop (nal.data - m),
    ⟨?_, fun more => ?_, rfl, ?_, ?_, ?_, ?_, .inl ⟨rfl, Nat.le_of_lt_succ (by simp)⟩, fun _ three => ?_⟩,
    fun _ => .inl ?_⟩
  · rw [Rbsp.init, h.bitsLeft, ok_bind, found, ok_bind, at_.validBits, unescaped, ok_bind, at_.validBits,
      if_pos (by omega)]
    rfl
  · rw [← List.append_assoc, ← taken, List.take_append_drop]
  · exact (payload_append_two front more clean).trans (by rw [front']; rfl)
  · rw [front']
    apply h.buffered.shift (Nat.zero_le _)
    · rw [List.length_append, List.length_cons, List.length_singleton]
      omega
    · intro i bound
      rw [← taken, Nat.zero_add, bit_take (by omega), bit_drop]
  · exact ⟨[], by rw [List.append_nil, List.drop_drop, Nat.add_sub_cancel' (by omega)]⟩
  · rw [List.length_drop, List.length_drop]
    dsimp only
    omega
  · exact h.short
  · simp at three
  · rw [front', List.length_append]
    simp only [List.length_cons, List.length_nil]
    omega

/-! ## Syntax elements -/

/-- The `width` lowest bits of a number, the highest first. -/
def binary (width value : Nat) : List Bool := (List.range width).map fun i => value.testBit (width - 1 - i)

inductive SyntaxElement where
  | u (width value : Nat)
  | ue (value : Nat)

namespace SyntaxElement

def bits : SyntaxElement → List Bool
  | u width value => binary width value
  | ue value => List.replicate (value + 1).log2 false ++ binary ((value + 1).log2 + 1) (value + 1)

/-- The value fits its field, a code has at most 15 leading zeros. -/
def Fits : SyntaxElement → Prop
  | u width value => width ≤ 16 ∧ value < 2 ^ width
  | ue value => value + 1 < 2 ^ 16

instance : DecidablePred Fits := fun element =>
  match element with
  | u width value => inferInstanceAs (Decidable (width ≤ 16 ∧ value < 2 ^ width))
  | ue value => inferInstanceAs (Decidable (value + 1 < 2 ^ 16))

/-- Where the buffer is filled to read an element that begins at `pos`. -/
def refills (pos : Nat) : SyntaxElement → List Nat
  | u width _ => if width = 0 then [] else [pos]
  | ue value => if value = 0 then [pos] else [pos, pos + (value + 1).log2 + 1]

end SyntaxElement

/-- These elements from `pos` on can be read. -/
def Legible (unit : Bytes) : (pos : Nat) → List SyntaxElement → Prop
  | _, [] => True
  | pos, element :: elements =>
      element.Fits ∧ (∀ p ∈ element.refills pos, ¬ Mistaken unit p) ∧
        Legible unit (pos + element.bits.length) elements

def Written (b : Nat → Bool) (pos : Nat) (bits : List Bool) : Prop := ∀ i bit, bits[i]? = some bit → b (pos + i) = bit

section Elements
variable {b : Nat → Bool} {pos : Nat}

theorem Written.of_map {bits : List Bool} (same : (List.range bits.length).map (fun i => b (pos + i)) = bits) :
    Written b pos bits := by
  intro i bit there
  obtain ⟨inside, -⟩ := List.getElem?_eq_some_iff.mp there
  rw [← same, List.getElem?_map, List.getElem?_range inside] at there
  exact Option.some.inj there

@[simp] theorem length_binary (width value : Nat) : (binary width value).length = width := by simp [binary]

theorem Written.append {front rest : List Bool} (h : Written b pos (front ++ rest)) :
    Written b pos front ∧ Written b (pos + front.length) rest := by
  constructor
  · intro i bit there
    obtain ⟨inside, -⟩ := List.getElem?_eq_some_iff.mp there
    exact h i bit (by rwa [List.getElem?_append_left inside])
  · intro i bit there
    rw [Nat.add_assoc]
    exact h (front.length + i) bit (by rwa [List.getElem?_append_right (by omega), Nat.add_sub_cancel_left])

theorem Written.value_eq {width number : Nat} (h : Written b pos (binary width number)) (small : number < 2 ^ width) :
    value b pos width = number := by
  apply Nat.eq_of_testBit_eq
  intro j
  rw [testBit_value]
  by_cases inside : j < width
  · rw [decide_eq_true inside, Bool.true_and]
    apply h
    rw [binary, List.getElem?_map, List.getElem?_range (by omega)]
    simp only [Option.map_some, Option.some.injEq]
    congr 1
    omega
  · rw [decide_eq_false inside, Bool.false_and, Nat.testBit_lt_two_pow]
    exact small.trans_le (Nat.pow_le_pow_right (by decide) (by omega))

theorem Written.code {number : Nat} (h : Written b pos (SyntaxElement.ue number).bits)
    (fits : (SyntaxElement.ue number).Fits) :
    Code 15 b pos number (pos + (SyntaxElement.ue number).bits.length) := by
  have low : 2 ^ (number + 1).log2 ≤ number + 1 := Nat.log2_self_le (by omega)
  have high : number + 1 < 2 ^ ((number + 1).log2 + 1) := Nat.lt_log2_self
  have short : (number + 1).log2 < 16 := (Nat.log2_lt (by omega)).mpr fits
  obtain ⟨blank, rest⟩ := h.append
  rw [List.length_replicate] at rest
  have whole := rest.value_eq high
  have split := @value_add b (pos + (number + 1).log2) 1 (number + 1).log2
  rw [Nat.add_comm 1, whole, value_one] at split
  have bound := value_lt b (pos + (number + 1).log2 + 1) (number + 1).log2
  have one : b (pos + (number + 1).log2) = true := by
    by_contra clear
    rw [Bool.not_eq_true] at clear
    rw [clear] at split
    simp only [Bool.toNat_false, Nat.zero_mul, Nat.zero_add] at split
    omega
  rw [one] at split
  refine ⟨(number + 1).log2, by omega, fun k inside => ?_, one, ?_, ?_⟩
  · apply blank
    rw [List.getElem?_replicate, if_pos inside]
  · simp only [Bool.toNat_true, Nat.one_mul] at split
    omega
  · simp only [SyntaxElement.bits, List.length_append, List.length_replicate, length_binary]
    omega

end Elements

section Reads
variable (ndebug : Bool) {input unit : Bytes} {pos : Nat} {rbsp : Rbsp}

theorem Rbsp.On.element_u (h : rbsp.On input unit pos) {width number : Nat}
    (written : Written (bit (payload unit)) pos (SyntaxElement.u width number).bits) (fits : (SyntaxElement.u width number).Fits)
    (sure : ∀ p ∈ (SyntaxElement.u width number).refills pos, ¬ Mistaken unit p)
    (left : pos + (SyntaxElement.u width number).bits.length + 24 ≤ 8 * (payload unit).length) :
    ∃ rbsp', rbsp.u ndebug input width = .ok (rbsp', number) ∧
      On input unit (pos + (SyntaxElement.u width number).bits.length) rbsp' := by
  obtain ⟨few, small⟩ := fits
  obtain ⟨rbsp', read, on⟩ := h.u ndebug few
    (fun some_ => sure pos (by rw [SyntaxElement.refills, if_neg (by omega)]; exact List.mem_singleton_self pos)) (by omega)
  rw [written.value_eq small] at read
  exact ⟨rbsp', read, by rwa [SyntaxElement.bits, length_binary]⟩

theorem Rbsp.On.element_ue (h : rbsp.On input unit pos) {number : Nat}
    (written : Written (bit (payload unit)) pos (SyntaxElement.ue number).bits) (fits : (SyntaxElement.ue number).Fits)
    (sure : ∀ p ∈ (SyntaxElement.ue number).refills pos, ¬ Mistaken unit p)
    (left : pos + (SyntaxElement.ue number).bits.length + 24 ≤ 8 * (payload unit).length) :
    ∃ rbsp', rbsp.ue ndebug input = .ok (rbsp', number) ∧
      On input unit (pos + (SyntaxElement.ue number).bits.length) rbsp' := by
  apply h.ue ndebug (written.code fits) _ left
  have length : (SyntaxElement.ue number).bits.length = 2 * (number + 1).log2 + 1 := by
    simp only [SyntaxElement.bits, List.length_append, List.length_replicate, length_binary]
    omega
  rw [SyntaxElement.refills] at sure
  by_cases zero : number = 0
  · subst zero
    rw [if_pos rfl] at sure
    refine ⟨sure pos (List.mem_singleton_self pos), fun more => absurd more ?_⟩
    rw [length, show Nat.log2 (0 + 1) = 0 by decide]
    omega
  · rw [if_neg zero] at sure
    refine ⟨sure pos List.mem_cons_self, fun _ => ?_⟩
    rw [length, show (pos + (pos + (2 * (number + 1).log2 + 1)) + 1) / 2 = pos + (number + 1).log2 + 1 by omega]
    exact sure _ (by simp)

end Reads
/-! ## Headers -/

/-- `modification_of_pic_nums_idc` 0, 1 and 2. -/
inductive RefPicListModification where
  | subtract (absDiffPicNumMinus1 : Nat)
  | add (absDiffPicNumMinus1 : Nat)
  | longTerm (longTermPicNum : Nat)

namespace RefPicListModification

def idc : RefPicListModification → Nat
  | subtract _ => 0
  | add _ => 1
  | longTerm _ => 2

def value : RefPicListModification → Nat
  | subtract value => value
  | add value => value
  | longTerm value => value

def subtracted : RefPicListModification → Option Nat
  | subtract value => some value
  | _ => none

end RefPicListModification

/-- The slice header of a non-IDR P slice. `num_ref_idx_active_override_flag` is set if there is a number, and
`ref_pic_list_modification_flag_l0` if there is a list. -/
structure SliceHeader where
  firstMbInSlice : Nat
  sliceType : Nat
  picParameterSetId : Nat
  frameNum : Nat
  numRefIdxL0ActiveMinus1 : Option Nat
  refPicListModifications : Option (List RefPicListModification)
  isP : sliceType = 0 ∨ sliceType = 5
  few : ∀ entries ∈ refPicListModifications, entries.length ≤ 2

/-- The `modification_of_pic_nums_idc` that comes before these entries; behind the last one it is 3. -/
def idcOf : List RefPicListModification → Nat
  | [] => 3
  | entry :: _ => entry.idc

/-- What comes behind the first `modification_of_pic_nums_idc`. -/
def entryElements : List RefPicListModification → List SyntaxElement
  | [] => []
  | entry :: entries => .ue entry.value :: .ue (idcOf entries) :: entryElements entries

/-- `abs_diff_pic_num_minus1` of the last entry with idc 0. -/
def lastSubtracted (entries : List RefPicListModification) : Option Nat := (entries.filterMap (·.subtracted)).getLast?

namespace SliceHeader

/-- Up to the override flag. -/
def start (header : SliceHeader) (frameNumWidth : Nat) : List SyntaxElement :=
  [.ue header.firstMbInSlice, .ue header.sliceType, .ue header.picParameterSetId, .u frameNumWidth header.frameNum]

def override (header : SliceHeader) : List SyntaxElement :=
  match header.numRefIdxL0ActiveMinus1 with
  | none => [.u 1 0]
  | some number => [.u 1 1, .ue number]

def modification (header : SliceHeader) : List SyntaxElement :=
  match header.refPicListModifications with
  | none => [.u 1 0]
  | some entries => .u 1 1 :: .ue (idcOf entries) :: entryElements entries

/-- The header in the order of its syntax. -/
def elements (header : SliceHeader) (frameNumWidth : Nat) : List SyntaxElement :=
  header.start frameNumWidth ++ (header.override ++ header.modification)

/-- What `slice_h264` takes for the header, if the number of active references is at least 4: behind a flag that
is set it reads two more. -/
def taken (header : SliceHeader) (frameNumWidth : Nat) : List SyntaxElement :=
  match header.numRefIdxL0ActiveMinus1 with
  | none => header.elements frameNumWidth
  | some _ => header.start frameNumWidth ++ [.u 1 1, .u 1 0, .u 1 0]

/-- The reference frame of the slice. -/
def reference (header : SliceHeader) : Nat := (lastSubtracted (header.refPicListModifications.getD [])).getD 0

end SliceHeader

def allBits (elements : List SyntaxElement) : List Bool := elements.flatMap SyntaxElement.bits

/-- The data is a unit of type 1 at the first start code. Its payload begins with the header, and at least three
bytes more follow. -/
structure Encoded (sps : Nat) (header : SliceHeader) (rbsp : Bytes) (s : Nat) (data : Bytes) : Prop where
  start : StartcodeAt data s
  type_eq : value (bit data) (8 * (s + 4) + 3) 5 = 1
  unit_eq : data.drop (s + 5) = escape rbsp
  frameNum_lt : header.frameNum < 2 ^ (sps + 4)
  written : Written (bit rbsp) 0 (allBits (header.elements (sps + 4)))
  further : (allBits (header.elements (sps + 4))).length + 24 ≤ 8 * rbsp.length

/-- None of the first six bytes is escaped, and no 3 is mistaken for an emulation prevention byte. -/
structure Readable (sps : Nat) (header : SliceHeader) (rbsp data : Bytes) : Prop where
  short : data.length < 2 ^ 27
  clean : behindLast ((escape rbsp).take 6) = none
  legible : Legible (escape rbsp) 0 (header.taken (sps + 4))

/-- The reader stands before these elements. -/
def Rbsp.Before (input unit : Bytes) (elements : List SyntaxElement) (rbsp : Rbsp) : Prop :=
  ∃ pos, rbsp.On input unit pos ∧ Written (bit (payload unit)) pos (allBits elements) ∧ Legible unit pos elements ∧
    pos + (allBits elements).length + 24 ≤ 8 * (payload unit).length

section Reading
variable (ndebug : Bool) {input unit : Bytes} {rbsp : Rbsp} {elements : List SyntaxElement}

/-- The first of the elements, and where the reader stands behind it. -/
theorem Rbsp.Before.first {element : SyntaxElement} (h : rbsp.Before input unit (element :: elements)) :
    ∃ pos, rbsp.On input unit pos ∧ Written (bit (payload unit)) pos element.bits ∧ element.Fits ∧
      (∀ p ∈ element.refills pos, ¬ Mistaken unit p) ∧
      pos + element.bits.length + 24 ≤ 8 * (payload unit).length ∧
      ∀ rbsp' : Rbsp, rbsp'.On input unit (pos + element.bits.length) → rbsp'.Before input unit elements := by
  obtain ⟨pos, on, written, ⟨fits, sure, rest⟩, left⟩ := h
  rw [allBits, List.flatMap_cons] at written left
  rw [List.length_append] at left
  obtain ⟨here, behind⟩ := written.append
  exact ⟨pos, on, here, fits, sure, by omega, fun rbsp' on' => ⟨_, on', behind, rest, by rw [allBits]; omega⟩⟩

theorem Rbsp.Before.ue {number : Nat} (h : rbsp.Before input unit (.ue number :: elements)) :
    ∃ rbsp', rbsp.ue ndebug input = .ok (rbsp', number) ∧ rbsp'.Before input unit elements := by
  obtain ⟨pos, on, here, fits, sure, left, behind⟩ := h.first
  obtain ⟨rbsp', read, on'⟩ := on.element_ue ndebug here fits sure left
  exact ⟨rbsp', read, behind rbsp' on'⟩

theorem Rbsp.Before.u {width number : Nat} (h : rbsp.Before input unit (.u width number :: elements)) :
    ∃ rbsp', rbsp.u ndebug input width = .ok (rbsp', number) ∧ rbsp'.Before input unit elements := by
  obtain ⟨pos, on, here, fits, sure, left, behind⟩ := h.first
  obtain ⟨rbsp', read, on'⟩ := on.element_u ndebug here fits sure left
  exact ⟨rbsp', read, behind rbsp' on'⟩

theorem Rbsp.Before.skipCodes {number : Nat} (h : rbsp.Before input unit (.ue number :: elements)) :
    ∃ rbsp', Chiaki.skipCodes ndebug input 1 rbsp = .ok rbsp' ∧ rbsp'.Before input unit elements := by
  obtain ⟨rbsp', read, before⟩ := h.ue ndebug
  refine ⟨rbsp', ?_, before⟩
  rw [Chiaki.skipCodes, read, ok_bind]
  rfl

theorem Rbsp.Before.skipFields {width number : Nat} (h : rbsp.Before input unit (.u width number :: elements)) :
    ∃ rbsp', Chiaki.skipFields ndebug input [width] rbsp = .ok rbsp' ∧ rbsp'.Before input unit elements := by
  obtain ⟨rbsp', read, before⟩ := h.u ndebug
  refine ⟨rbsp', ?_, before⟩
  rw [Chiaki.skipFields, read, ok_bind]
  rfl

theorem refPicListModification_before (entries : List RefPicListModification) (slice : BitstreamSlice) (left : Nat)
    (enough : entries.length < left) (h : rbsp.Before input unit (entryElements entries)) :
    refPicListModification ndebug input slice left (idcOf entries) rbsp =
      .ok (true, { slice with referenceFrame := (lastSubtracted entries).getD slice.referenceFrame }) := by
  induction entries generalizing slice left rbsp with
  | nil =>
      obtain ⟨left, rfl⟩ := Nat.exists_eq_add_of_lt enough
      rw [refPicListModification, idcOf, if_pos rfl]
      rfl
  | cons entry entries ih =>
      obtain ⟨left, rfl⟩ := Nat.exists_eq_add_of_lt enough
      obtain ⟨rbsp1, value, before1⟩ := h.ue ndebug
      obtain ⟨rbsp2, next, before2⟩ := before1.ue ndebug
      have idc : entry.idc < 3 := by cases entry <;> simp [RefPicListModification.idc]
      rw [refPicListModification, idcOf, if_neg (by omega), if_neg (by omega), value, ok_bind]
      dsimp only
      rw [next, ok_bind]
      dsimp only
      rw [ih _ _ (by rw [List.length_cons]; omega) before2]
      cases entry with
      | subtract number => simp [RefPicListModification.idc, RefPicListModification.value, lastSubtracted,
          RefPicListModification.subtracted, List.getLast?_cons]
      | add number => simp [RefPicListModification.idc, lastSubtracted, RefPicListModification.subtracted]
      | longTerm number => simp [RefPicListModification.idc, lastSubtracted, RefPicListModification.subtracted]

end Reading

section Header
variable (ndebug : Bool) (address : Nat) {bitstream : Bitstream} {header : SliceHeader} {rbsp data : Bytes} {s : Nat}

theorem SliceHeader.allBits_pos (frameNumWidth : Nat) : 0 < (allBits (header.elements frameNumWidth)).length := by
  simp [SliceHeader.elements, SliceHeader.start, allBits, SyntaxElement.bits]

/-- The unit is found, and its payload begins with what is taken for the header. -/
theorem Encoded.begins {elements : List SyntaxElement} (h : Encoded bitstream.sps header rbsp s data)
    (short : data.length < 2 ^ 27) (clean : behindLast ((escape rbsp).take 6) = none)
    (front : allBits elements <+: allBits (header.elements (bitstream.sps + 4)))
    (legible : Legible (escape rbsp) 0 elements) :
    ∃ vlc vlc1 vlc2 reader, Vlc.init address data data.length = .ok vlc ∧ skipStartcode ndebug data vlc = .ok (vlc1, true) ∧
      nalHeaderH264 ndebug vlc1 = .ok (vlc2, 1) ∧ Rbsp.init ndebug data vlc2 = .ok reader ∧
      reader.Before data (escape rbsp) elements := by
  have payload_eq := payload_escape rbsp
  have further := h.further
  have some_ := @SliceHeader.allBits_pos header (bitstream.sps + 4)
  have longer := length_payload_le (escape rbsp)
  have length := congrArg List.length h.unit_eq
  rw [payload_eq] at longer
  rw [List.length_drop] at length
  obtain ⟨vlc, start, at0, end0, left0⟩ := Vlc.init_at address data short
  obtain ⟨vlc1, skip, at1, enough, end1, left1⟩ := skipStartcode_at ndebug h.start at0 end0 left0
  have full := at1.full
  obtain ⟨vlc2, nal, at2, data2, end2, left2⟩ := nalHeaderH264_at ndebug at1 (by omega)
  rw [h.type_eq] at nal
  have unbroken : Unbroken (bit data) (s + 4 + 1) (data.length + 8) :=
    Unbroken.of_not_infix (by rw [h.unit_eq]; exact not_infix_escape rbsp) _
  have clean' : behindLast ((data.drop (s + 4 + 1)).take (vlc2.data - (s + 4 + 1))) = none := by
    rw [h.unit_eq]
    apply @behindLast_none_left _ (((escape rbsp).take 6).drop (vlc2.data - (s + 4 + 1)))
    rwa [show (escape rbsp).take (vlc2.data - (s + 4 + 1)) = ((escape rbsp).take 6).take (vlc2.data - (s + 4 + 1)) by
      rw [List.take_take, Nat.min_eq_left (by omega)], List.take_append_drop]
  obtain ⟨reader, init, on⟩ := Rbsp.init_on ndebug at2 unbroken clean' (by omega) (by omega) (by omega)
  rw [h.unit_eq] at on
  obtain ⟨more, same⟩ := front
  have lengths := congrArg List.length same
  rw [List.length_append] at lengths
  refine ⟨vlc, vlc1, vlc2, reader, start, skip, nal, init, 0, on, ?_, legible, ?_⟩
  · rw [payload_eq]
    have written := h.written
    rw [← same] at written
    exact written.append.1
  · rw [payload_eq]
    omega

theorem Encoded.read_start {rest : List SyntaxElement} (small : bitstream.sps ≤ 12)
    (h : Encoded bitstream.sps header rbsp s data) (short : data.length < 2 ^ 27)
    (clean : behindLast ((escape rbsp).take 6) = none)
    (front : allBits (header.start (bitstream.sps + 4) ++ rest) <+: allBits (header.elements (bitstream.sps + 4)))
    (legible : Legible (escape rbsp) 0 (header.start (bitstream.sps + 4) ++ rest)) (stack : BitstreamSlice) :
    ∃ reader1 reader2, reader2.Before data (escape rbsp) rest ∧
      sliceH264 ndebug address data bitstream stack = referenceH264 ndebug data bitstream ⟨.p, stack.referenceFrame⟩ reader1 ∧
      (skipCodes ndebug data 1 reader1 >>= skipFields ndebug data [(bitstream.sps + 4) % 2 ^ 32]) = .ok reader2 := by
  obtain ⟨vlc, vlc1, vlc2, reader, start, skip, nal, init, before⟩ :=
    h.begins ndebug address short clean front legible
  obtain ⟨reader1, firstMb, before1⟩ := before.skipCodes ndebug
  obtain ⟨reader2, sliceType, before2⟩ := before1.ue ndebug
  obtain ⟨reader3, parameterSet, before3⟩ := before2.skipCodes ndebug
  obtain ⟨reader4, frameNum, before4⟩ := before3.skipFields ndebug
  refine ⟨reader2, reader4, before4, ?_, ?_⟩
  · have type : sliceTypeH264 header.sliceType = .p := by rcases header.isP with zero | five <;> simp [*, sliceTypeH264]
    rw [sliceH264, start, ok_bind, skip, ok_bind]
    dsimp only
    rw [if_neg (by decide), nal, ok_bind]
    dsimp only
    rw [if_neg (by decide), init, ok_bind, firstMb, ok_bind, sliceType, ok_bind]
    dsimp only
    rw [if_pos rfl, type]
  · rw [parameterSet, ok_bind, Nat.mod_eq_of_lt (by omega), frameNum]

theorem Encoded.reads (small : bitstream.sps ≤ 12) (h : Encoded bitstream.sps header rbsp s data)
    (readable : Readable bitstream.sps header rbsp data) (none_ : header.numRefIdxL0ActiveMinus1 = none)
    (stack : BitstreamSlice) :
    sliceH264 ndebug address data bitstream stack = .ok (true, ⟨.p, header.reference⟩) := by
  have legible := readable.legible
  rw [SliceHeader.taken, none_] at legible
  obtain ⟨reader1, reader2, before, start, skip⟩ := h.read_start ndebug address small readable.short readable.clean
    (List.prefix_refl _) legible stack
  rw [SliceHeader.override, none_] at before
  obtain ⟨reader3, override, before3⟩ := before.u ndebug
  rw [start, referenceH264]
  dsimp only
  rw [← bind_assoc, skip, ok_bind, override, ok_bind]
  dsimp only
  rw [if_neg (by decide)]
  simp only [pure, Except.pure, ok_bind]
  rw [if_neg (by decide)]
  rw [SliceHeader.modification] at before3
  rw [SliceHeader.reference]
  cases list : header.refPicListModifications with
  | none =>
      rw [list] at before3
      obtain ⟨reader4, modification, -⟩ := before3.u ndebug
      rw [modification, ok_bind]
      rfl
  | some entries =>
      rw [list] at before3
      obtain ⟨reader4, modification, before4⟩ := before3.u ndebug
      obtain ⟨reader5, idc, before5⟩ := before4.ue ndebug
      have few := header.few entries list
      rw [modification, ok_bind]
      dsimp only
      rw [if_neg (by decide), idc, ok_bind]
      exact refPicListModification_before ndebug entries _ 3 (by omega) before5

end Header
end Chiaki
