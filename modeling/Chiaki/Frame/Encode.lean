import Chiaki.Frame.Fec
import Mathlib.Data.FinEnum
import Mathlib.Data.Fintype.Vector

/-!
# Encoding a frame

The encoding half of `fec.c` and what the decoder makes of a frame that was encoded. Source units lie at
multiples of the stride, coding units are written without gaps.
-/

namespace Chiaki
open Memory

/-- `jerasure_matrix_encode`: the coding units for source units of one size. -/
structure MatrixEncoder where
  matrixEncode : (k m size : Nat) → List Bytes → List Bytes
  encode_shape : ∀ k m size units, units.length = k → (∀ unit ∈ units, unit.length = size) →
    (matrixEncode k m size units).length = m ∧
      ∀ unit ∈ matrixEncode k m size units, unit.length = size

/-- Which allocations of an encoding succeed, `coding` those of the single coding units. -/
structure EncodeOutcome where
  dataPtrs : Bool
  codingPtrs : Bool
  coding : Nat → Bool

/-- `chiaki_fec_encode`. -/
def fecEncode (jerasure : Jerasure) (encoder : MatrixEncoder) (outcome : EncodeOutcome)
    (frameBuf : Option Bytes) (unitSize stride k m : Nat) : Checked (Option Bytes × ErrorCode) :=
  if stride < unitSize then pure (frameBuf, .invalidData)
  else if !jerasure.codingMatrix k m then pure (frameBuf, .memory)
  else if !(outcome.dataPtrs && outcome.codingPtrs) then pure (frameBuf, .memory)
  -- This way out leaves `err` as it is.
  else if !(List.range m).all outcome.coding then pure (frameBuf, .success)
  else do
    let buf ← deref frameBuf
    let units ← inBounds (gather buf stride unitSize k 0)
    -- Unit `i` goes to `k * unit_size + i * unit_size`.
    let buf ← inBounds (scatter unitSize (encoder.matrixEncode k m unitSize units) k buf)
    pure (some buf, .success)

/-- What was written to the units that are erased does not matter. -/
def SameUnits (buf damaged : Bytes) (unitSize stride k m : Nat) (erasures : List Nat) : Prop :=
  damaged.length = buf.length ∧
    ∀ i, i < k + m → i ∉ erasures → read damaged (stride * i) unitSize = read buf (stride * i) unitSize

/-- Up to `m` units of the frame are lost and decoding gives the source units back. With no source unit
there is nothing to give back. -/
def Decodes (jerasure : Jerasure) (buf : Bytes) (source : Option (List Bytes)) (unitSize stride k m : Nat) :
    Prop :=
  ∀ erasures damaged outcome, erasures.Nodup → (∀ i ∈ erasures, i < k + m) → erasures.length ≤ m →
    SameUnits buf damaged unitSize stride k m erasures →
    ∃ restored err,
      fecDecode jerasure outcome (some damaged) unitSize stride k m erasures = .ok (some restored, err) ∧
      if jerasure.codingMatrix k m && (outcome.jerasures && outcome.dataPtrs && outcome.codingPtrs) then
        gather restored stride unitSize k 0 = source ∧ (k ≠ 0 → err = .success)
      else err ≠ .success

/-- Encoding with these allocations, and decoding what it leaves: no source unit is touched, a failed
allocation is reported, and a success means that what gets lost can be restored. -/
def RoundTrips (jerasure : Jerasure) (encoder : MatrixEncoder) (outcome : EncodeOutcome)
    (unitSize stride k m : Nat) : Prop :=
  ∀ buf : Bytes, stride * (k + m) ≤ buf.length →
    ∃ encoded err, fecEncode jerasure encoder outcome (some buf) unitSize stride k m = .ok (some encoded, err) ∧
      gather encoded stride unitSize k 0 = gather buf stride unitSize k 0 ∧
      ((jerasure.codingMatrix k m && outcome.dataPtrs && outcome.codingPtrs &&
        (List.range m).all outcome.coding) = false → err ≠ .success) ∧
      (err = .success → Decodes jerasure encoded (gather buf stride unitSize k 0) unitSize stride k m)

/-- An allocation fails before those of the coding units, or all succeed and there is no gap between the
units of the frame, or no byte to encode or no unit to encode it in. -/
def EncodesInPlace (jerasure : Jerasure) (outcome : EncodeOutcome) (unitSize stride k m : Nat) : Prop :=
  (jerasure.codingMatrix k m && outcome.dataPtrs && outcome.codingPtrs) = false ∨
    (List.range m).all outcome.coding = true ∧ (stride = unitSize ∨ unitSize = 0 ∨ k = 0 ∨ m = 0)

section Encode
variable {jerasure : Jerasure} {encoder : MatrixEncoder} {outcome : EncodeOutcome}
variable {unitSize stride k m : Nat} {buf : Bytes}

theorem fecEncode_refused (narrow : unitSize ≤ stride)
    (refused : (jerasure.codingMatrix k m && outcome.dataPtrs && outcome.codingPtrs) = false) :
    fecEncode jerasure encoder outcome (some buf) unitSize stride k m = .ok (some buf, .memory) := by
  rw [fecEncode, if_neg (by omega)]
  cases matrix : jerasure.codingMatrix k m with
  | false => rfl
  | true =>
      rw [matrix, Bool.true_and] at refused
      rw [refused]
      rfl

section Allocated
variable (narrow : unitSize ≤ stride)
variable (allocated : (jerasure.codingMatrix k m && outcome.dataPtrs && outcome.codingPtrs) = true)
include narrow allocated

theorem fecEncode_unreported (coding : (List.range m).all outcome.coding = false) :
    fecEncode jerasure encoder outcome (some buf) unitSize stride k m = .ok (some buf, .success) := by
  rw [Bool.and_assoc, Bool.and_eq_true] at allocated
  rw [fecEncode, if_neg (by omega), allocated.1, allocated.2, coding]
  rfl

/-- What an encoding leaves in the frame buffer. -/
structure Coded (encoder : MatrixEncoder) (unitSize stride k m : Nat) (buf : Bytes) (source : List Bytes)
    (encoded : Bytes) : Prop where
  gathered : gather buf stride unitSize k 0 = some source
  written : gather encoded unitSize unitSize m k = some (encoder.matrixEncode k m unitSize source)
  length : encoded.length = buf.length
  others : ∀ i, i < unitSize * k ∨ unitSize * (k + m) ≤ i → encoded[i]? = buf[i]?

theorem fecEncode_coded (coding : (List.range m).all outcome.coding = true)
    (inside : stride * (k + m) ≤ buf.length) :
    ∃ source encoded, Coded encoder unitSize stride k m buf source encoded ∧
      fecEncode jerasure encoder outcome (some buf) unitSize stride k m = .ok (some encoded, .success) := by
  rw [Bool.and_assoc, Bool.and_eq_true] at allocated
  have sources : stride * k ≤ stride * (k + m) := Nat.mul_le_mul_left _ (Nat.le_add_right _ _)
  have packed : unitSize * (k + m) ≤ stride * (k + m) := Nat.mul_le_mul_right _ narrow
  obtain ⟨source, gathered⟩ : ∃ source, gather buf stride unitSize k 0 = some source :=
    ⟨_, gather_eq narrow (by rw [Nat.zero_add]; omega)⟩
  obtain ⟨count, sizes⟩ := encoder.encode_shape k m unitSize source (gather_eq_some_iff.mp gathered).1
    (length_of_gather gathered)
  obtain ⟨encoded, scattered, length, -, reads⟩ := exists_scatter k buf (Nat.le_refl unitSize) sizes
    (by rw [count]; omega)
  refine ⟨source, encoded, ⟨gathered, gather_eq_some_iff.mpr ⟨count, fun j bound => ?_⟩, length, ?_⟩, ?_⟩
  · have there := List.getElem?_eq_getElem (count.symm ▸ bound :
      j < (encoder.matrixEncode k m unitSize source).length)
    rw [there]
    exact reads j _ there
  · intro i outside
    apply getElem?_of_scatter scattered (fun unit member => (sizes unit member).le)
    rwa [count]
  · rw [fecEncode, if_neg (by omega), allocated.1, allocated.2, coding]
    simp [gathered, scattered, ok_bind]

end Allocated

/-! ## Units without gaps -/

theorem fecDecode_refused {outcome : FlushOutcome} (narrow : unitSize ≤ stride)
    (refused : (outcome.jerasures && outcome.dataPtrs && outcome.codingPtrs) = false)
    (erasures : List Nat) {source : Option (List Bytes)} :
    ∃ restored err,
      fecDecode jerasure outcome (some buf) unitSize stride k m erasures = .ok (some restored, err) ∧
      if jerasure.codingMatrix k m && (outcome.jerasures && outcome.dataPtrs && outcome.codingPtrs) then
        gather restored stride unitSize k 0 = source ∧ (k ≠ 0 → err = .success)
      else err ≠ .success := by
  refine ⟨buf, .memory, ?_, ?_⟩
  · rw [fecDecode, if_neg (by omega), refused]
    cases jerasure.codingMatrix k m <;> rfl
  · rw [refused, Bool.and_false, if_neg (by decide)]
    decide

/-- A frame buffer that holds a source and its coding units decodes to the source. -/
theorem decodes_of_units (narrow : unitSize ≤ stride) (inside : stride * (k + m) ≤ buf.length)
    {source : List Bytes} (restores : Restores jerasure (encoder.matrixEncode k m unitSize) k m unitSize)
    (units : gather buf stride unitSize (k + m) 0 =
      some (source ++ encoder.matrixEncode k m unitSize source))
    (count : source.length = k) : Decodes jerasure buf (some source) unitSize stride k m := by
  intro erasures damaged outcome nodup bounds few same
  obtain ⟨length, undamaged⟩ := same
  have matrix := restores.matrix
  by_cases memory : (outcome.jerasures && outcome.dataPtrs && outcome.codingPtrs) = true
  · rw [← length] at inside
    obtain ⟨there, reads⟩ := gather_eq_some_iff.mp units
    obtain ⟨left, restored, gathered, decoded, gathered', -⟩ :=
      FrameProcessor.fecDecode_decoded narrow inside matrix memory erasures
    obtain ⟨leftCount, leftReads⟩ := gather_eq_some_iff.mp gathered
    have sizes := length_of_gather units
    have result := restores.decode source left erasures count
      (fun unit member => sizes unit (List.mem_append_left _ member)) leftCount
      (length_of_gather gathered) nodup bounds (by
        intro i bound kept
        rw [← leftReads i bound, ← reads i bound, Nat.zero_add]
        exact undamaged i bound kept)
    rw [if_pos few] at result
    rw [result] at decoded gathered'
    refine ⟨restored, .success, decoded, ?_⟩
    rw [matrix, memory, if_pos (by decide)]
    refine ⟨gather_eq_some_iff.mpr ⟨count, fun j bound => ?_⟩, fun _ => rfl⟩
    rw [(gather_eq_some_iff.mp gathered').2 j (by omega), List.getElem?_append_left (by omega)]
  · exact fecDecode_refused narrow (Bool.eq_false_iff.mpr memory) erasures

/-- Where there is no gap, the units are the source and the coding units one after the other. -/
theorem Coded.units {source : List Bytes} {encoded : Bytes}
    (h : Coded encoder unitSize stride k m buf source encoded) (narrow : unitSize ≤ stride)
    (inside : stride * (k + m) ≤ buf.length) (flat : stride = unitSize ∨ unitSize = 0 ∨ m = 0) :
    gather encoded stride unitSize (k + m) 0 =
      some (source ++ encoder.matrixEncode k m unitSize source) := by
  obtain ⟨count, reads⟩ := gather_eq_some_iff.mp h.gathered
  obtain ⟨codedCount, codedReads⟩ := gather_eq_some_iff.mp h.written
  have sizes := length_of_gather h.gathered
  have codedSizes := length_of_gather h.written
  refine gather_eq_some_iff.mpr ⟨by rw [List.length_append, count, codedCount], fun j bound => ?_⟩
  have fits : stride * (j + 1) ≤ stride * (k + m) := Nat.mul_le_mul_left _ bound
  rw [Nat.mul_succ] at fits
  rw [Nat.zero_add]
  by_cases none : unitSize = 0
  · have present : j < (source ++ encoder.matrixEncode k m unitSize source).length := by
      rw [List.length_append, count, codedCount]
      exact bound
    have empty : (source ++ encoder.matrixEncode k m unitSize source)[j].length = 0 := by
      cases List.mem_append.mp (List.getElem_mem present) with
      | inl member => rw [sizes _ member, none]
      | inr member => rw [codedSizes _ member, none]
    rw [List.getElem?_eq_getElem present, List.length_eq_zero_iff.mp empty, none, read_eq_some
      (by rw [h.length]; omega), List.take_zero]
  by_cases front : j < k
  · rw [List.getElem?_append_left (by omega), ← reads j front, Nat.zero_add]
    apply read_congr h.length
    intro i low high
    apply h.others
    cases flat with
    | inl flat =>
        have before : unitSize * (j + 1) ≤ unitSize * k := Nat.mul_le_mul_left _ front
        rw [Nat.mul_succ] at before
        rw [flat] at high
        exact .inl (by omega)
    | inr flat =>
        obtain rfl : m = 0 := by omega
        rw [Nat.add_zero]
        omega
  · have flat : stride = unitSize := by omega
    rw [List.getElem?_append_right (by omega), count, ← codedReads (j - k) (by omega), flat,
      Nat.add_sub_cancel' (by omega)]

theorem decodes_nothing (narrow : unitSize ≤ stride) (inside : stride * (0 + m) ≤ buf.length)
    (matrix : jerasure.codingMatrix 0 m = true) : Decodes jerasure buf (some []) unitSize stride 0 m := by
  intro erasures damaged outcome nodup bounds few same
  by_cases memory : (outcome.jerasures && outcome.dataPtrs && outcome.codingPtrs) = true
  · rw [← same.1] at inside
    obtain ⟨left, restored, -, decoded, -⟩ :=
      FrameProcessor.fecDecode_decoded narrow inside matrix memory erasures
    refine ⟨restored, _, decoded, ?_⟩
    rw [matrix, memory, if_pos (by decide)]
    exact ⟨rfl, fun none => absurd rfl none⟩
  · exact fecDecode_refused narrow (Bool.eq_false_iff.mpr memory) erasures

theorem Coded.source_kept {source : List Bytes} {encoded : Bytes}
    (h : Coded encoder unitSize stride k m buf source encoded)
    (units : gather encoded stride unitSize (k + m) 0 =
      some (source ++ encoder.matrixEncode k m unitSize source)) :
    gather encoded stride unitSize k 0 = some source := by
  obtain ⟨count, -⟩ := gather_eq_some_iff.mp h.gathered
  refine gather_eq_some_iff.mpr ⟨count, fun j bound => ?_⟩
  rw [(gather_eq_some_iff.mp units).2 j (by omega), List.getElem?_append_left (by omega)]

theorem roundTrips_of_inPlace (narrow : unitSize ≤ stride)
    (restores : jerasure.codingMatrix k m = true →
      Restores jerasure (encoder.matrixEncode k m unitSize) k m unitSize)
    (place : EncodesInPlace jerasure outcome unitSize stride k m) :
    RoundTrips jerasure encoder outcome unitSize stride k m := by
  intro buf inside
  cases allocated : (jerasure.codingMatrix k m && outcome.dataPtrs && outcome.codingPtrs) with
  | false =>
      exact ⟨buf, .memory, fecEncode_refused narrow allocated, rfl, fun _ => by decide, by simp⟩
  | true =>
      obtain ⟨coding, flat⟩ := place.resolve_left (by rw [allocated]; decide)
      obtain ⟨source, encoded, coded, done⟩ := @fecEncode_coded jerasure encoder _ _ _ _ _ buf narrow
        allocated coding inside
      have matrix : jerasure.codingMatrix k m = true := by
        rw [Bool.and_assoc, Bool.and_eq_true] at allocated
        exact allocated.1
      obtain ⟨count, -⟩ := gather_eq_some_iff.mp coded.gathered
      have inside' : stride * (k + m) ≤ encoded.length := by rwa [coded.length]
      refine ⟨encoded, .success, done, ?_, by simp [coding], fun _ => ?_⟩ <;> rw [coded.gathered]
      · by_cases none : k = 0
        · subst none
          rw [List.length_eq_zero_iff.mp count]
          rfl
        · exact coded.source_kept (coded.units narrow inside (by omega))
      · by_cases none : k = 0
        · subst none
          rw [List.length_eq_zero_iff.mp count]
          exact decodes_nothing narrow inside' matrix
        · exact decodes_of_units narrow inside' (restores matrix)
            (coded.units narrow inside (by omega)) count

/-! ## Gaps -/

/-- All that can be lost but one coding unit, and the first source unit lost. -/
def allBut (k m j : Nat) : List Nat := 0 :: (List.range' k m).erase (k + j)

theorem allBut_nodup (some_source : 0 < k) (j : Nat) : (allBut k m j).Nodup := by
  refine List.nodup_cons.mpr ⟨fun member => ?_, List.Nodup.erase _ List.nodup_range'⟩
  have low := (List.mem_range'_1.mp (List.mem_of_mem_erase member)).1
  omega

theorem allBut_lt (some_source : 0 < k) (j : Nat) : ∀ i ∈ allBut k m j, i < k + m := by
  intro i member
  cases member with
  | head => omega
  | tail _ member => exact (List.mem_range'_1.mp (List.mem_of_mem_erase member)).2

theorem allBut_length {j : Nat} (bound : j < m) : (allBut k m j).length ≤ m := by
  rw [allBut, List.length_cons, List.length_erase_of_mem (List.mem_range'_1.mpr (by omega)),
    List.length_range']
  omega

theorem not_mem_allBut {j i : Nat} (bound : i < k + m) (kept : i ∉ allBut k m j) :
    0 < i ∧ i < k ∨ i = k + j := by
  by_contra other
  apply kept
  by_cases first : i = 0
  · rw [first]
    exact List.mem_cons_self
  · exact List.mem_cons_of_mem _ ((List.mem_erase_of_ne (by omega)).mpr (List.mem_range'_1.mpr (by omega)))

theorem length_of_set {source : List Bytes} (sizes : ∀ unit ∈ source, unit.length = unitSize) {first : Bytes}
    (firstSize : first.length = unitSize) : ∀ unit ∈ source.set 0 first, unit.length = unitSize := by
  intro unit member
  cases List.mem_or_eq_of_mem_set member with
  | inl member => exact sizes unit member
  | inr same => rw [same, firstSize]

section Replaced
variable (restores : Restores jerasure (encoder.matrixEncode k m unitSize) k m unitSize)
variable {source : List Bytes} (count : source.length = k) (sizes : ∀ unit ∈ source, unit.length = unitSize)
variable (some_source : 0 < k) {j : Nat} (bound : j < m)
include restores count sizes some_source bound

/-- The later source units and one coding unit decide what the first source unit is restored to. -/
theorem Restores.decode_allBut {first : Bytes} (firstSize : first.length = unitSize) {units : List Bytes}
    (unitCount : units.length = k + m) (unitSizes : ∀ unit ∈ units, unit.length = unitSize)
    (later : ∀ i, 0 < i → i < k → units[i]? = source[i]?)
    (coding : units[k + j]? = (encoder.matrixEncode k m unitSize (source.set 0 first))[j]?) :
    jerasure.matrixDecode k m (allBut k m j) units =
      (true, source.set 0 first ++ encoder.matrixEncode k m unitSize (source.set 0 first)) := by
  have result := restores.decode (source.set 0 first) units (allBut k m j)
    (by rw [List.length_set, count]) (length_of_set sizes firstSize) unitCount unitSizes
    (allBut_nodup some_source j) (allBut_lt some_source j) (by
      intro i inside kept
      cases not_mem_allBut inside kept with
      | inl source_unit =>
          rw [later i source_unit.1 source_unit.2,
            List.getElem?_append_left (by rw [List.length_set]; omega), List.getElem?_set_ne (by omega)]
      | inr coding_unit =>
          rw [List.getElem?_append_right (by rw [List.length_set]; omega), List.length_set, count,
            coding_unit, Nat.add_sub_cancel_left, coding])
  rwa [if_pos (allBut_length bound)] at result

/-- The first source unit can be chosen such that a coding unit is any unit at all. -/
theorem Restores.exists_source {unit : Bytes} (size : unit.length = unitSize) :
    ∃ first : Bytes, first.length = unitSize ∧
      (encoder.matrixEncode k m unitSize (source.set 0 first))[j]? = some unit := by
  have shape := fun first : List.Vector UInt8 unitSize =>
    encoder.encode_shape k m unitSize (source.set 0 first.val) (by rw [List.length_set, count])
      (length_of_set sizes first.property)
  have there : ∀ first : List.Vector UInt8 unitSize,
      ∃ coded : List.Vector UInt8 unitSize,
        (encoder.matrixEncode k m unitSize (source.set 0 first.val))[j]? = some coded.val := by
    intro first
    have inside : j < (encoder.matrixEncode k m unitSize (source.set 0 first.val)).length := by
      rw [(shape first).1]
      exact bound
    exact ⟨⟨_, (shape first).2 _ (List.getElem_mem inside)⟩, List.getElem?_eq_getElem inside⟩
  choose code coded using there
  have injective : Function.Injective code := by
    intro a b same
    -- The units for `a` decode to every source with this coding unit, so to both.
    have decoded : ∀ first, code first = code a →
        jerasure.matrixDecode k m (allBut k m j)
          (source.set 0 a.val ++ encoder.matrixEncode k m unitSize (source.set 0 a.val)) =
        (true, source.set 0 first.val ++ encoder.matrixEncode k m unitSize (source.set 0 first.val)) := by
      intro first same
      apply restores.decode_allBut count sizes some_source bound first.property
      · rw [List.length_append, List.length_set, count, (shape a).1]
      · intro unit member
        cases List.mem_append.mp member with
        | inl member => exact length_of_set sizes a.property unit member
        | inr member => exact (shape a).2 unit member
      · intro i low high
        rw [List.getElem?_append_left (by rw [List.length_set]; omega), List.getElem?_set_ne (by omega)]
      · rw [List.getElem?_append_right (by rw [List.length_set]; omega), List.length_set, count,
          Nat.add_sub_cancel_left, coded, coded, same]
    have both := (Prod.mk.inj ((decoded a rfl).symm.trans (decoded b same.symm))).2
    have first := (List.append_inj both (by simp)).1
    have head := congrArg (·[0]?) first
    rw [List.getElem?_set_self (by omega), List.getElem?_set_self (by omega)] at head
    exact Subtype.ext (Option.some.inj head)
  obtain ⟨first, same⟩ := Finite.surjective_of_injective injective ⟨unit, size⟩
  exact ⟨first.val, first.property, by rw [coded, same]⟩

end Replaced

/-- A frame of zeros but for the last byte of the last unit. -/
def blank (unitSize stride k m : Nat) (last : UInt8) : Bytes :=
  (List.replicate (stride * (k + m)) 0).set (stride * (k + m - 1) + (unitSize - 1)) last

section Gaps
variable (gap : unitSize < stride) (some_byte : 0 < unitSize) (some_source : 0 < k) (some_fec : 0 < m)
include gap some_byte some_source some_fec

theorem blank_inside : stride * (k + m - 1) + (unitSize - 1) < stride * (k + m) := by
  obtain ⟨units, eq⟩ : ∃ units, k + m = units + 1 := ⟨k + m - 1, by omega⟩
  rw [eq, Nat.mul_succ, Nat.add_sub_cancel]
  omega

/-- No unit that is encoded holds the last byte, and no coding unit is written there. -/
theorem blank_behind : stride * k ≤ stride * (k + m - 1) + (unitSize - 1) ∧
    unitSize * (k + m) ≤ stride * (k + m - 1) + (unitSize - 1) := by
  obtain ⟨units, eq⟩ : ∃ units, k + m = units + 1 := ⟨k + m - 1, by omega⟩
  have sources : stride * k ≤ stride * units := Nat.mul_le_mul_left _ (by omega)
  have wider : (unitSize + 1) * units ≤ stride * units := Nat.mul_le_mul_right _ gap
  rw [Nat.succ_mul] at wider
  rw [eq, Nat.mul_succ, Nat.add_sub_cancel]
  omega

theorem blank_source (last : UInt8) :
    gather (blank unitSize stride k m last) stride unitSize k 0 =
      some (List.replicate k (List.replicate unitSize 0)) := by
  have inside := blank_inside gap some_byte some_source some_fec
  have behind := (blank_behind gap some_byte some_source some_fec).1
  refine gather_eq_some_iff.mpr ⟨List.length_replicate, fun j bound => ?_⟩
  have fits : stride * (j + 1) ≤ stride * k := Nat.mul_le_mul_left _ bound
  rw [Nat.mul_succ] at fits
  rw [Nat.zero_add, List.getElem?_replicate_of_lt bound]
  apply read_eq_replicate
  · rw [blank, List.length_set, List.length_replicate]
    omega
  · intro i low high
    rw [blank, List.getElem?_set_ne (by omega), List.getElem?_replicate_of_lt (by omega)]

/-- With gaps between the units the last byte of the frame, whatever it is, becomes part of the last coding
unit, which then belongs to another source. -/
theorem not_roundTrips_gap (restores : Restores jerasure (encoder.matrixEncode k m unitSize) k m unitSize)
    (allocated : (jerasure.codingMatrix k m && outcome.dataPtrs && outcome.codingPtrs) = true)
    (coding : (List.range m).all outcome.coding = true) :
    ¬ RoundTrips jerasure encoder outcome unitSize stride k m := by
  intro holds
  have narrow : unitSize ≤ stride := by omega
  obtain ⟨source, source_eq⟩ : ∃ source, List.replicate k (List.replicate unitSize (0 : UInt8)) = source :=
    ⟨_, rfl⟩
  have count : source.length = k := by rw [← source_eq, List.length_replicate]
  have sizes : ∀ unit ∈ source, unit.length = unitSize := by
    intro unit member
    rw [← source_eq] at member
    rw [List.eq_of_mem_replicate member, List.length_replicate]
  obtain ⟨codedCount, codedSizes⟩ := encoder.encode_shape k m unitSize source count sizes
  obtain ⟨right, right_eq⟩ : ∃ right, (encoder.matrixEncode k m unitSize source)[m - 1]? = some right :=
    ⟨_, List.getElem?_eq_getElem (by omega)⟩
  have rightSize := codedSizes right (List.mem_of_getElem? right_eq)
  -- a last byte that does not belong to the source
  have other : ∃ last : UInt8, right[unitSize - 1]? ≠ some last := by
    by_cases zero : right[unitSize - 1]? = some 0
    · exact ⟨1, by rw [zero]; decide⟩
    · exact ⟨0, zero⟩
  obtain ⟨last, differs⟩ := other
  have lengths : (blank unitSize stride k m last).length = stride * (k + m) := by
    rw [blank, List.length_set, List.length_replicate]
  have inside := blank_inside gap some_byte some_source some_fec
  obtain ⟨-, behind⟩ := blank_behind gap some_byte some_source some_fec
  obtain ⟨source', encoded, coded, done⟩ := @fecEncode_coded jerasure encoder _ _ _ _ _
    (blank unitSize stride k m last) narrow allocated coding lengths.ge
  have gathered := blank_source gap some_byte some_source some_fec last
  rw [source_eq] at gathered
  obtain rfl : source' = source := Option.some.inj (coded.gathered.symm.trans gathered)
  obtain ⟨encoded', err, done', kept, -, decodes⟩ := holds (blank unitSize stride k m last) lengths.ge
  rw [done] at done'
  obtain ⟨same, rfl⟩ := Prod.mk.inj (Except.ok.inj done')
  obtain rfl := Option.some.inj same
  rw [gathered] at kept decodes
  -- what the decoder takes for the last coding unit
  have fits : stride * (k + m - 1) + unitSize ≤ encoded.length := by
    rw [coded.length, lengths]
    omega
  obtain ⟨wrong, wrong_eq⟩ : ∃ wrong, read encoded (stride * (k + m - 1)) unitSize = some wrong :=
    ⟨_, read_eq_some fits⟩
  have wrong_ne : right ≠ wrong := by
    rintro rfl
    apply differs
    rw [getElem?_of_read wrong_eq (by omega), coded.others _ (.inr behind), blank,
      List.getElem?_set_self (by rwa [List.length_replicate])]
  obtain ⟨first, firstSize, first_eq⟩ := restores.exists_source count sizes some_source
    (show m - 1 < m by omega) (length_of_read wrong_eq).1
  have inside' : stride * (k + m) ≤ encoded.length := by rw [coded.length, lengths]
  have matrix := restores.matrix
  obtain ⟨restored, err, done'', outcome_eq⟩ := decodes rfl (allBut k m (m - 1)) encoded
    ⟨true, true, true, true⟩ (allBut_nodup some_source _) (allBut_lt some_source _)
    (allBut_length (by omega)) ⟨rfl, fun _ _ _ => rfl⟩
  rw [matrix, if_pos (by decide)] at outcome_eq
  obtain ⟨units, restored', units_eq, decoded, restored_eq, -⟩ :=
    @FrameProcessor.fecDecode_decoded jerasure ⟨true, true, true, true⟩ encoded unitSize stride k m narrow
      inside' matrix rfl (allBut k m (m - 1))
  rw [done''] at decoded
  obtain ⟨same, -⟩ := Prod.mk.inj (Except.ok.inj decoded)
  obtain rfl := Option.some.inj same
  obtain ⟨unitCount, unitReads⟩ := gather_eq_some_iff.mp units_eq
  obtain ⟨-, keptReads⟩ := gather_eq_some_iff.mp kept
  have result := restores.decode_allBut count sizes some_source (show m - 1 < m by omega) firstSize
    unitCount (length_of_gather units_eq)
    (fun i low high => by rw [← unitReads i (by omega), ← keptReads i high]) (by
      rw [← unitReads _ (by omega), first_eq, Nat.zero_add, ← wrong_eq]
      congr 2
      omega)
  rw [result] at restored_eq
  -- the decoder returns the other source
  have head := (gather_eq_some_iff.mp restored_eq).2 0 (by omega)
  rw [(gather_eq_some_iff.mp outcome_eq.1).2 0 some_source,
    List.getElem?_append_left (by rw [List.length_set]; omega),
    List.getElem?_set_self (by omega)] at head
  obtain ⟨_, first_source⟩ := List.getElem?_eq_some_iff.mp head
  rw [← first_source, List.set_getElem_self] at first_eq
  exact wrong_ne (Option.some.inj (right_eq.symm.trans first_eq))

end Gaps

/-- For a library that restores what it can, encoding and decoding fit together in a frame without gaps
and only when no coding unit lacks memory. -/
theorem roundTrips_iff (narrow : unitSize ≤ stride)
    (restores : jerasure.codingMatrix k m = true →
      Restores jerasure (encoder.matrixEncode k m unitSize) k m unitSize) :
    RoundTrips jerasure encoder outcome unitSize stride k m ↔
      EncodesInPlace jerasure outcome unitSize stride k m := by
  refine ⟨fun holds => ?_, roundTrips_of_inPlace narrow restores⟩
  by_contra place
  rw [EncodesInPlace, not_or, Bool.not_eq_false] at place
  obtain ⟨allocated, place⟩ := place
  cases coding : (List.range m).all outcome.coding with
  | false =>
      obtain ⟨encoded, err, done, -, reported, -⟩ :=
        holds (List.replicate (stride * (k + m)) 0) List.length_replicate.ge
      rw [fecEncode_unreported narrow allocated coding] at done
      obtain ⟨-, rfl⟩ := Prod.mk.inj (Except.ok.inj done)
      exact reported (by rw [coding, Bool.and_false]) rfl
  | true =>
      have matrix : jerasure.codingMatrix k m = true := by
        rw [Bool.and_assoc, Bool.and_eq_true] at allocated
        exact allocated.1
      have gaps : ¬ (stride = unitSize ∨ unitSize = 0 ∨ k = 0 ∨ m = 0) := fun flat => place ⟨coding, flat⟩
      exact not_roundTrips_gap (by omega) (by omega) (by omega) (by omega) (restores matrix) allocated coding
        holds

end Encode

/-- Every coding unit is the first source unit. -/
def copyEncoder : MatrixEncoder where
  matrixEncode _ m size units := List.replicate m (units.headD (List.replicate size 0))
  encode_shape k m size units count sizes := by
    refine ⟨List.length_replicate, fun unit member => ?_⟩
    rw [List.eq_of_mem_replicate member]
    cases units with
    | nil => exact List.length_replicate
    | cons unit rest => exact sizes unit List.mem_cons_self

theorem copyEncoder_restores (size : Nat) :
    Restores FrameProcessor.copyDecoder (copyEncoder.matrixEncode 1 1 size) 1 1 size where
  matrix := rfl
  decode source units erasures count := by
    obtain ⟨unit, rfl⟩ := List.length_eq_one_iff.mp count
    exact (FrameProcessor.copyDecoder_restores size).decode [unit] units erasures count

theorem roundTrips_copied :
    RoundTrips FrameProcessor.copyDecoder copyEncoder ⟨true, true, fun _ => true⟩ 3 3 1 1 :=
  (roundTrips_iff (by decide) fun _ => copyEncoder_restores 3).mpr (.inr ⟨rfl, .inl rfl⟩)

/-- With a gap the coding unit is not where it is looked for; without memory for it there is no error. -/
theorem not_roundTrips_copied :
    Restores FrameProcessor.copyDecoder (copyEncoder.matrixEncode 1 1 1) 1 1 1 ∧
      ¬ RoundTrips FrameProcessor.copyDecoder copyEncoder ⟨true, true, fun _ => true⟩ 1 2 1 1 ∧
      ¬ RoundTrips FrameProcessor.copyDecoder copyEncoder ⟨true, true, fun _ => false⟩ 1 1 1 1 := by
  refine ⟨copyEncoder_restores 1, fun holds => ?_, fun holds => ?_⟩
  · obtain ⟨encoded, err, done, -, -, decodes⟩ := holds [7, 0, 0, 0] (by decide)
    have encodes : fecEncode FrameProcessor.copyDecoder copyEncoder ⟨true, true, fun _ => true⟩
        (some [7, 0, 0, 0]) 1 2 1 1 = .ok (some [7, 7, 0, 0], .success) := rfl
    obtain ⟨same, rfl⟩ := Prod.mk.inj (Except.ok.inj (encodes.symm.trans done))
    obtain rfl := Option.some.inj same
    obtain ⟨restored, err, done, restored_eq, -⟩ := decodes rfl [0] [7, 7, 0, 0] ⟨true, true, true, true⟩
      (by decide) (by decide) (by decide) ⟨rfl, fun _ _ _ => rfl⟩
    have restores : fecDecode FrameProcessor.copyDecoder ⟨true, true, true, true⟩ (some [7, 7, 0, 0]) 1 2 1 1
        [0] = .ok (some [0, 7, 0, 0], .success) := rfl
    obtain ⟨same, -⟩ := Prod.mk.inj (Except.ok.inj (restores.symm.trans done))
    obtain rfl := Option.some.inj same
    exact absurd restored_eq (by decide)
  · obtain ⟨encoded, err, done, -, reported, -⟩ := holds [7, 0] (by decide)
    have encodes : fecEncode FrameProcessor.copyDecoder copyEncoder ⟨true, true, fun _ => false⟩
        (some [7, 0]) 1 1 1 1 = .ok (some [7, 0], .success) := rfl
    obtain ⟨-, rfl⟩ := Prod.mk.inj (Except.ok.inj (encodes.symm.trans done))
    exact reported rfl rfl

end Chiaki
