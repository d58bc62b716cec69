import Chiaki.Frame.Assembly

/-!
# Recovering a frame

Any `k` units of a frame of `k` source units give the bytes that the `k` source units give; fewer than
`k` are reported.
-/

namespace Chiaki
open Memory Machine

/-- What the library does with `k` source and `m` coding units of one size that belong together, some of
them missing: up to `m` it restores, more it reports. -/
structure Restores (jerasure : Jerasure) (encode : List Bytes → List Bytes) (k m size : Nat) : Prop where
  matrix : jerasure.codingMatrix k m = true
  decode : ∀ source units erasures, source.length = k → (∀ unit ∈ source, unit.length = size) →
    units.length = k + m → (∀ unit ∈ units, unit.length = size) →
    erasures.Nodup → (∀ i ∈ erasures, i < k + m) →
    (∀ i, i < k + m → i ∉ erasures → units[i]? = (source ++ encode source)[i]?) →
    if erasures.length ≤ m then
      jerasure.matrixDecode k m erasures units = (true, source ++ encode source)
    else (jerasure.matrixDecode k m erasures units).1 = false

theorem card_le_of_lt {got : Finset Nat} {n : Nat} (inside : ∀ i ∈ got, i < n) : got.card ≤ n := by
  calc got.card ≤ (Finset.range n).card := Finset.card_le_card fun i member => Finset.mem_range.mpr (inside i member)
    _ = n := Finset.card_range n

namespace VideoFrame

def paddedSource (frame : VideoFrame) : List Bytes := frame.source.map (·.rightpad frame.unitSize 0)

/-- The FEC units are the encoding of the padded source units. -/
def Encoded (encode : List Bytes → List Bytes) (frame : VideoFrame) : Prop :=
  frame.fec = encode frame.paddedSource

/-- What the frame buffer holds for each unit before the correction. -/
def arrived (frame : VideoFrame) (got : Finset Nat) : List Bytes :=
  (List.range' 0 frame.unitCount).map fun i =>
    if i ∈ got then frame.padded i else List.replicate frame.unitSize 0

def missing (frame : VideoFrame) (got : Finset Nat) : List Nat :=
  (List.range' 0 frame.unitCount).filter (· ∉ got)

section Units
variable (frame : VideoFrame)

theorem padded_source {i : Nat} (source : i < frame.source.length) :
    (frame.paddedSource ++ frame.fec)[i]? = some (frame.padded i) := by
  rw [paddedSource, List.getElem?_append_left (by simpa using source), List.getElem?_map,
    List.getElem?_eq_getElem source, padded, unit, List.getD_append _ _ _ _ source,
    List.getD_eq_getElem _ _ source]
  rfl

theorem padded_fec {i : Nat} (behind : frame.source.length ≤ i) (bound : i < frame.unitCount) :
    (frame.paddedSource ++ frame.fec)[i]? = some (frame.padded i) := by
  have size := frame.fec_size _ (frame.unit_fec behind bound)
  have length : frame.paddedSource.length = frame.source.length := List.length_map _
  unfold unitCount at bound
  rw [padded, List.rightpad, size, Nat.sub_self, List.replicate_zero, List.append_nil,
    List.getElem?_append_right (by omega), length, unit, List.getD_append_right _ _ _ _ behind,
    List.getD_eq_getElem _ _ (by omega), List.getElem?_eq_getElem]

theorem padded_eq {i : Nat} (bound : i < frame.unitCount) :
    (frame.paddedSource ++ frame.fec)[i]? = some (frame.padded i) := by
  by_cases source : i < frame.source.length
  · exact frame.padded_source source
  · exact frame.padded_fec (by omega) bound

theorem missing_nodup (got : Finset Nat) : (frame.missing got).Nodup :=
  List.Nodup.filter _ List.nodup_range'

theorem mem_missing {got : Finset Nat} {i : Nat} :
    i ∈ frame.missing got ↔ i < frame.unitCount ∧ i ∉ got := by
  rw [missing, List.mem_filter, List.mem_range'_1]
  simp

theorem missing_length {got : Finset Nat} (inside : ∀ i ∈ got, i < frame.unitCount) :
    (frame.missing got).length = frame.unitCount - got.card := by
  have indices : (frame.missing got).toFinset = Finset.range frame.unitCount \ got := by
    ext i
    rw [List.mem_toFinset, mem_missing, Finset.mem_sdiff, Finset.mem_range]
  have sub : got ⊆ Finset.range frame.unitCount := fun i member => Finset.mem_range.mpr (inside i member)
  rw [← List.toFinset_card_of_nodup (frame.missing_nodup got), indices, Finset.card_sdiff_of_subset sub,
    Finset.card_range]

/-- The library gets what it needs to know: the frame as it arrived and the indices that did not. -/
theorem decode_arrived {jerasure : Jerasure} {encode : List Bytes → List Bytes}
    (some_source : frame.source ≠ []) (encoded : frame.Encoded encode)
    (restores : Restores jerasure encode frame.source.length frame.fec.length frame.unitSize)
    {got : Finset Nat} (inside : ∀ i ∈ got, i < frame.unitCount) :
    if frame.source.length ≤ got.card then
      jerasure.matrixDecode frame.source.length frame.fec.length (frame.missing got) (frame.arrived got) =
        (true, frame.paddedSource ++ frame.fec)
    else (jerasure.matrixDecode frame.source.length frame.fec.length (frame.missing got)
      (frame.arrived got)).1 = false := by
  have sizes : ∀ i, i < frame.unitCount → (frame.padded i).length = frame.unitSize :=
    fun i bound => frame.padded_length some_source bound
  have decoded := restores.decode frame.paddedSource (frame.arrived got) (frame.missing got)
    (List.length_map _) ?_ (by simp [arrived, unitCount]) ?_ (frame.missing_nodup got) ?_ ?_
  · rw [frame.missing_length inside, ← encoded] at decoded
    have count : frame.unitCount = frame.source.length + frame.fec.length := rfl
    have card := card_le_of_lt inside
    by_cases enough : frame.source.length ≤ got.card
    · rw [if_pos enough]
      rwa [if_pos (by omega)] at decoded
    · rw [if_neg enough]
      rwa [if_neg (by omega)] at decoded
  · intro unit member
    obtain ⟨source, there, rfl⟩ := List.mem_map.mp member
    have size := (frame.source_size source there).2
    rw [List.rightpad, List.length_append, List.length_replicate]
    omega
  · intro unit member
    obtain ⟨i, range, rfl⟩ := List.mem_map.mp member
    have bound := (List.mem_range'_1.mp range).2
    rw [Nat.zero_add] at bound
    split
    · exact sizes i bound
    · exact List.length_replicate
  · intro i member
    exact ((frame.mem_missing).mp member).1
  · intro i bound there
    have member : i ∈ got := by
      by_contra absent
      exact there ((frame.mem_missing).mpr ⟨bound, absent⟩)
    rw [← encoded, frame.padded_eq bound, arrived, List.getElem?_map,
      List.getElem?_range' (by exact bound), Option.map_some, Nat.zero_add, Nat.one_mul, if_pos member]

end Units
end VideoFrame

namespace FrameProcessor

theorem findErasures_eq (slots : List Nat) (count left i : Nat) (found : List Nat)
    (all : i + left ≤ slots.length)
    (room : found.length + ((List.range' i left).filter (slots.getD · 0 = 0)).length ≤ count) :
    findErasures (some slots) count left i found =
      .ok (some (found ++ (List.range' i left).filter (slots.getD · 0 = 0))) := by
  induction left generalizing i found with
  | zero =>
      rw [List.range'_zero, List.filter_nil, List.append_nil]
      rfl
  | succ left ih =>
      rw [findErasures, slotSize_eq (by omega), ok_bind]
      rw [List.range'_succ] at room ⊢
      by_cases empty : slots.getD i 0 = 0
      · rw [List.filter_cons_of_pos (by simpa using empty)] at room ⊢
        rw [List.length_cons] at room
        rw [if_pos empty, if_neg (by omega), ih (i + 1) (found ++ [i]) (by omega)
          (by rw [List.length_append, List.length_singleton]; omega)]
        simp
      · rw [List.filter_cons_of_neg (by simpa using empty)] at room ⊢
        rw [if_neg empty, ih (i + 1) found (by omega) room]

section Restore
variable {frame : VideoFrame} {fp : FrameProcessor} {buf : Bytes}

theorem padding_of_padded {i : Nat} (source : i < frame.source.length) :
    (frame.unit i).length + paddingOf ((frame.padded i).take 2) = frame.unitSize ∧
      paddingOf ((frame.padded i).take 2) < frame.unitSize := by
  obtain ⟨enough, size⟩ := frame.source_size _ (frame.unit_source source)
  rw [VideoFrame.padded, List.rightpad, List.take_append_of_le_length enough]
  exact ⟨size, by omega⟩

theorem restoreSizes_frame (some_source : frame.source ≠ []) (here : fp.frameBuf = some buf)
    (size_eq : fp.bufSizePerUnit = frame.unitSize)
    (content : ∀ i, i < frame.source.length →
      read buf (fp.bufStridePerUnit * i) frame.unitSize = some (frame.padded i))
    (left i : Nat) (source : i + left ≤ frame.source.length) {slots : List Nat}
    (all : frame.source.length ≤ slots.length) :
    ∃ slots', fp.restoreSizes left i (some slots) = .ok (some slots') ∧
      (∀ j, i ≤ j → j < i + left → slots'.getD j 0 = (frame.unit j).length) ∧
      ∀ j, j < i → slots'.getD j 0 = slots.getD j 0 := by
  induction left generalizing i slots with
  | zero => exact ⟨slots, rfl, fun j low high => by omega, fun j _ => rfl⟩
  | succ left ih =>
      have positive := frame.two_le_unitSize some_source
      have record := content i (by omega)
      have head : read buf (fp.bufStridePerUnit * i) 2 = some ((frame.padded i).take 2) :=
        take_of_read record positive
      obtain ⟨size, small⟩ := @padding_of_padded frame i (by omega)
      obtain ⟨slots', restored, sizes, before⟩ := @ih (i + 1) (by omega)
        (slots.set i (fp.bufSizePerUnit - paddingOf ((frame.padded i).take 2)))
        (by rw [List.length_set]; exact all)
      have set : (slots.set i (fp.bufSizePerUnit - paddingOf ((frame.padded i).take 2))).getD i 0 =
          (frame.unit i).length := by
        rw [List.getD_eq_getElem?_getD, List.getElem?_set_self (by omega), size_eq]
        simp only [Option.getD_some]
        omega
      refine ⟨slots', ?_, ?_, ?_⟩
      · rw [FrameProcessor.restoreSizes, here, deref_some, ok_bind, head, inBounds_some, ok_bind,
          if_neg (by omega), slotSize_eq (by omega), ok_bind]
        exact restored
      · intro j low high
        by_cases same : j = i
        · subst same
          rw [before j (by omega), set]
        · exact sizes j (by omega) (by omega)
      · intro j low
        rw [before j (by omega), List.getD_eq_getElem?_getD, List.getElem?_set_ne (by omega),
          List.getD_eq_getElem?_getD]

end Restore

/-! ## The correction -/

section Correct
variable {frame : VideoFrame} {got : Finset Nat} {fp : FrameProcessor} {slots : List Nat} {buf : Bytes}
variable (h : Holding frame got fp slots buf) (some_source : frame.source ≠ [])
variable (some_fec : frame.fec ≠ [])
include h some_source some_fec

omit some_source in
theorem Holding.fecExpected : fp.unitsFecExpected = frame.fec.length := by
  have positive := List.length_pos_iff.mpr some_fec
  rw [h.fec_eq, VideoFrame.fecSlots, if_neg (by omega)]

omit some_source in
theorem Holding.unitCount : fp.unitsSourceExpected + fp.unitsFecExpected = frame.unitCount := by
  rw [h.source_eq, h.fecExpected some_fec, VideoFrame.unitCount]

omit some_source in
theorem Holding.slotsSize_unitCount : fp.unitSlotsSize = frame.unitCount := by
  rw [h.slotsSize_eq, h.unitCount some_fec]

omit some_source some_fec in
theorem Holding.received : fp.unitsSourceReceived + fp.unitsFecReceived = got.card := by
  rw [h.sourceReceived_eq, h.fecReceived_eq, Finset.card_filter_add_card_filter_not]

omit some_source some_fec in
theorem Holding.card_le : got.card ≤ frame.unitCount := card_le_of_lt h.got_lt

omit some_source in
theorem Holding.erasuresCount (few : frame.unitCount ≤ unitSlotsMax) :
    fp.erasuresCount = (frame.missing got).length := by
  have card := h.card_le
  have bound : unitSlotsMax < 2 ^ 32 := by decide
  rw [FrameProcessor.erasuresCount, h.unitCount some_fec, h.received, frame.missing_length h.got_lt,
    Nat.mod_eq_of_lt (a := got.card) (by omega)]
  omega

theorem Holding.findErasures (few : frame.unitCount ≤ unitSlotsMax) :
    FrameProcessor.findErasures fp.unitSlots fp.erasuresCount
      (fp.unitsSourceExpected + fp.unitsFecExpected) 0 [] = .ok (some (frame.missing got)) := by
  have empty : (List.range' 0 frame.unitCount).filter (slots.getD · 0 = 0) = frame.missing got := by
    apply List.filter_congr
    intro i member
    have bound := (List.mem_range'_1.mp member).2
    have enough := (frame.unit_length some_source (i := i) (by omega)).1
    rw [h.slot_eq]
    by_cases there : i ∈ got
    · rw [if_pos there]
      rw [decide_eq_decide]
      exact iff_of_false (by omega) (not_not.mpr there)
    · rw [if_neg there]
      simp [there]
  rw [h.unitCount some_fec, h.erasuresCount some_fec few, h.slots_eq, findErasures_eq, List.nil_append,
    empty]
  · rw [h.slots_count, h.slotsSize_unitCount some_fec, Nat.zero_add]
  · rw [empty, List.length_nil, Nat.zero_add]

omit some_source in
theorem Holding.gather :
    Memory.gather buf fp.bufStridePerUnit fp.bufSizePerUnit (fp.unitsSourceExpected + fp.unitsFecExpected) 0 =
      some (frame.arrived got) := by
  have fits := h.fits
  have length := h.blocks_length
  have slots := h.slotsSize_unitCount some_fec
  rw [h.unitCount some_fec, gather_eq h.narrow (by
    rw [Nat.zero_add, Nat.mul_comm, ← slots]
    omega), VideoFrame.arrived]
  congr 1
  apply List.map_congr_left
  intro i member
  have bound := (List.mem_range'_1.mp member).2
  have record := h.read_eq i (by omega)
  obtain ⟨-, inside⟩ := length_of_read record
  rw [read_eq_some inside] at record
  rw [h.size_eq, Nat.mul_comm]
  exact Option.some.inj record

section Decode
variable {jerasure : Jerasure} {encode : List Bytes → List Bytes} (encoded : frame.Encoded encode)
variable (restores : Restores jerasure encode frame.source.length frame.fec.length frame.unitSize)
variable (outcome : FlushOutcome)
variable (memory : (outcome.jerasures && outcome.dataPtrs && outcome.codingPtrs) = true)
include encoded restores memory

omit some_source encoded in
/-- `chiaki_fec_decode` hands the frame as it arrived to the library and stores what comes back. -/
theorem Holding.fecDecode :
    ∃ decoded units buf', jerasure.matrixDecode frame.source.length frame.fec.length (frame.missing got)
        (frame.arrived got) = (decoded, units) ∧
      scatter fp.bufStridePerUnit units 0 buf = some buf' ∧
      Chiaki.fecDecode jerasure outcome fp.frameBuf fp.bufSizePerUnit fp.bufStridePerUnit
        fp.unitsSourceExpected fp.unitsFecExpected (frame.missing got) =
          .ok (some buf', if decoded then .success else .fecFailed) := by
  obtain ⟨buf', err, done, -⟩ := h.toReady.fecDecode jerasure outcome (frame.missing got) h.blocks_length
  rw [← h.buf_eq] at done
  have narrow := h.narrow
  cases result : jerasure.matrixDecode frame.source.length frame.fec.length (frame.missing got)
      (frame.arrived got) with
  | mk decoded units =>
      rw [Chiaki.fecDecode, if_neg (by omega), h.source_eq, h.fecExpected some_fec, restores.matrix,
        if_neg (by decide), memory, if_neg (by decide), h.buf_eq, deref_some, ok_bind] at done ⊢
      have gathered := h.gather some_fec
      rw [h.source_eq, h.fecExpected some_fec] at gathered
      rw [gathered, inBounds_some, ok_bind] at done ⊢
      simp only [result] at done ⊢
      obtain ⟨buf'', scattered, -⟩ := bind_eq_ok done
      refine ⟨decoded, units, buf'', rfl, inBounds_eq_ok scattered, ?_⟩
      rw [scattered]
      rfl

theorem Holding.decodeFrame_whole (enough : frame.source.length ≤ got.card) :
    ∃ fp' slots' buf', fp.decodeFrame jerasure outcome (frame.missing got) = .ok (fp', .success) ∧
      Whole frame fp' slots' buf' := by
  have narrow := h.narrow
  have fits := h.fits
  have slotsSize := h.slotsSize_unitCount some_fec
  have unitCount : frame.unitCount = frame.source.length + frame.fec.length := rfl
  have length := h.blocks_length
  have decoded := frame.decode_arrived some_source encoded restores h.got_lt
  rw [if_pos enough] at decoded
  obtain ⟨ok, units, buf1, result, scattered, done⟩ := h.fecDecode some_fec restores outcome memory
  rw [decoded] at result
  obtain ⟨rfl, rfl⟩ := Prod.mk.inj result
  have units_length : (frame.paddedSource ++ frame.fec).length = frame.unitCount := by
    rw [List.length_append, VideoFrame.paddedSource, List.length_map, unitCount]
  have units_size : ∀ unit ∈ frame.paddedSource ++ frame.fec, unit.length = fp.bufSizePerUnit := by
    intro unit member
    obtain ⟨i, bound, rfl⟩ := List.mem_iff_getElem.mp member
    rw [units_length] at bound
    have at_ := frame.padded_eq bound
    rw [List.getElem?_eq_getElem (by omega)] at at_
    rw [Option.some.inj at_, h.size_eq, frame.padded_length some_source bound]
  obtain ⟨buf2, scattered', length', -, records⟩ := exists_scatter 0 buf narrow units_size
    (by rw [Nat.zero_add, units_length, Nat.mul_comm, ← slotsSize]; omega)
  obtain rfl := Option.some.inj (scattered.symm.trans scattered')
  have buf_length := length'.trans length
  have content : ∀ i, i < frame.source.length →
      read buf1 (fp.bufStridePerUnit * i) frame.unitSize = some (frame.padded i) := by
    intro i source
    have record := records i _ (frame.padded_eq (by omega))
    rwa [Nat.zero_add, h.size_eq] at record
  have sizes : ∀ size ∈ slots, size ≤ fp.bufSizePerUnit := by
    intro size member
    exact h.sizes size (by rwa [h.slots_eq])
  have ready := h.toReady.withBlocks h.slots_count buf_length sizes
  obtain ⟨slots', restored, count, sizes'⟩ := ready.restoreSizes rfl buf_length frame.source.length 0
    (by rw [Nat.zero_add]; exact h.source_eq.ge) h.slots_count sizes
  obtain ⟨slots'', restored', slot_eq, -⟩ := @restoreSizes_frame frame (fp.withBlocks slots buf1) buf1
    some_source rfl h.size_eq content frame.source.length 0 (Nat.zero_add _).le slots
    (by rw [h.slots_count]; omega)
  obtain rfl := Option.some.inj (Except.ok.inj (restored.symm.trans restored'))
  refine ⟨fp.withBlocks slots' buf1, slots', buf1, ?_, ?_⟩
  · rw [decodeFrame, done, ok_bind, if_pos rfl]
    simp only [FrameProcessor.withBlocks, ← h.slots_eq, h.source_eq] at restored ⊢
    rw [if_neg (by simp), restored, ok_bind]
    rfl
  · refine ⟨h.toReady.withBlocks count buf_length sizes', h.source_eq, rfl, rfl, count, buf_length, ?_, ?_⟩
    · intro i source
      exact slot_eq i (Nat.zero_le _) (by omega)
    · intro i source
      rw [Nat.mul_comm]
      exact content i source

theorem Holding.decodeFrame_failed (few : ¬ frame.source.length ≤ got.card) :
    ∃ fp', fp.decodeFrame jerasure outcome (frame.missing got) = .ok (fp', .fecFailed) := by
  have decoded := frame.decode_arrived some_source encoded restores h.got_lt
  rw [if_neg few] at decoded
  obtain ⟨ok, units, buf', result, -, done⟩ := h.fecDecode some_fec restores outcome memory
  rw [result] at decoded
  obtain rfl : ok = false := decoded
  refine ⟨{ fp with frameBuf := some buf' }, ?_⟩
  rw [decodeFrame, done]
  rfl

end Decode

/-- With source units missing, the list of erasures is complete and goes to the decoder. -/
theorem Holding.correct_eq (few : frame.unitCount ≤ unitSlotsMax)
    (short : fp.unitsSourceReceived < fp.unitsSourceExpected) (jerasure : Jerasure) (ndebug : Bool)
    (outcome : FlushOutcome) (memory : outcome.erasures = true) :
    fp.correct jerasure ndebug outcome = (do
      let r ← fp.decodeFrame jerasure outcome (frame.missing got)
      pure (r.1, if r.2 = .success then .fecSuccess else .fecFailed)) := by
  have listed : ((ndebug || decide ((frame.missing got).length = fp.erasuresCount)) : Bool) = true := by
    rw [h.erasuresCount some_fec few, decide_eq_true rfl, Bool.or_true]
  rw [FrameProcessor.correct, if_pos short, FrameProcessor.fec, memory, if_neg (by decide),
    h.findErasures some_source some_fec few, ok_bind]
  simp only [listed, assert_true, ok_bind]
  rw [h.erasuresCount some_fec few, Nat.sub_self, List.replicate_zero, List.append_nil]

end Correct

/-! ## Whole frames -/

/-- What comes of a frame whose units arrive in this order when the memory for it is there. -/
def Yields (jerasure : Jerasure) (ndebug : Bool) (fp : FrameProcessor) (first : TakionAVPacket)
    (rest : List TakionAVPacket) (result : FlushResult) (bytes : Option Bytes) : Prop :=
  ∃ started received fp', fp.allocFrame first ⟨true, true⟩ = .ok (started, .success) ∧
    started.receive (first :: rest) = .ok received ∧
    received.flush jerasure ndebug ⟨true, true, true, true⟩ = .ok (fp', result, bytes)

section Flush
variable {frame : VideoFrame} {got : Finset Nat} {fp : FrameProcessor} {slots : List Nat} {buf : Bytes}
variable (h : Holding frame got fp slots buf) (some_source : frame.source ≠ [])
variable (some_fec : frame.fec ≠ []) (few : frame.unitCount ≤ unitSlotsMax)
variable {jerasure : Jerasure} {encode : List Bytes → List Bytes} (encoded : frame.Encoded encode)
variable (restores : Restores jerasure encode frame.source.length frame.fec.length frame.unitSize)
variable (ndebug : Bool)
include h some_source some_fec few encoded restores

theorem Holding.flush_enough (enough : frame.source.length ≤ got.card) :
    ∃ fp' result, fp.flush jerasure ndebug ⟨true, true, true, true⟩ =
        .ok (fp', result, some frame.payload) ∧
      (result = .success ∨ result = .fecSuccess) := by
  by_cases complete : ∀ i, i < frame.source.length → i ∈ got
  · obtain ⟨fp', flushed⟩ := h.flush_complete some_source complete jerasure ndebug ⟨true, true, true, true⟩
    exact ⟨fp', _, flushed, .inl rfl⟩
  · have short := h.source_short complete
    obtain ⟨fp', slots', buf', decoded, whole⟩ :=
      h.decodeFrame_whole some_source some_fec encoded restores ⟨true, true, true, true⟩ rfl enough
    obtain ⟨fp'', flushed⟩ := whole.flush (h.going some_source) (by
      rw [h.correct_eq some_source some_fec few short jerasure ndebug ⟨true, true, true, true⟩ rfl,
        decoded]
      rfl)
    exact ⟨fp'', _, flushed, .inr rfl⟩

theorem Holding.flush_short (short : got.card < frame.source.length) :
    ∃ fp' bytes, fp.flush jerasure ndebug ⟨true, true, true, true⟩ = .ok (fp', .fecFailed, bytes) := by
  have missing : ¬ ∀ i, i < frame.source.length → i ∈ got := by
    intro complete
    have all : Finset.range frame.source.length ⊆ got :=
      fun i member => complete i (Finset.mem_range.mp member)
    have card := Finset.card_le_card all
    rw [Finset.card_range] at card
    omega
  obtain ⟨fp', failed⟩ :=
    h.decodeFrame_failed some_source some_fec encoded restores ⟨true, true, true, true⟩ rfl (by omega)
  have corrected : fp.correct jerasure ndebug ⟨true, true, true, true⟩ = .ok (fp', .fecFailed) := by
    rw [h.correct_eq some_source some_fec few (h.source_short missing) jerasure ndebug
      ⟨true, true, true, true⟩ rfl, failed]
    rfl
  have sizes : ∀ size ∈ slots, size ≤ fp.bufSizePerUnit := by
    intro size member
    exact h.sizes size (by rwa [h.slots_eq])
  obtain ⟨err, slots', buf', decoded, count, length, sizes'⟩ := decodeFrame_ready jerasure
    ⟨true, true, true, true⟩ h.toReady h.slots_count h.blocks_length sizes (frame.missing got)
  have same : fp = fp.withBlocks slots buf := by rw [FrameProcessor.withBlocks, ← h.slots_eq, ← h.buf_eq]
  rw [← same, failed] at decoded
  obtain ⟨rfl, -⟩ := Prod.mk.inj (Except.ok.inj decoded)
  obtain ⟨buf'', compacted, -⟩ := (h.toReady.withBlocks count length sizes').compact rfl count length le_rfl
  obtain ⟨fp'', flushed⟩ := flush_of_compact (h.going some_source) corrected rfl compacted
  exact ⟨fp'', _, flushed⟩

end Flush

/-- From any state a run can reach: `k` units of a frame yield what its source units yield, fewer are
reported. -/
theorem recovers_iff_enough {jerasure : Jerasure} {ndebug : Bool} {ops : List Op}
    {fp : FrameProcessor} {os : List Out}
    (reached : run (step jerasure ndebug) init ops = .ok (fp, os)) (frame : VideoFrame)
    (some_source : frame.source ≠ []) (some_fec : frame.fec ≠ [])
    (few : frame.source.length + frame.fec.length ≤ unitSlotsMax)
    {encode : List Bytes → List Bytes} (encoded : frame.Encoded encode)
    (restores : Restores jerasure encode frame.source.length frame.fec.length frame.unitSize)
    (first : TakionAVPacket) (rest : List TakionAVPacket)
    (units : ∀ packet ∈ first :: rest, frame.IsUnit packet) :
    (frame.source.length ≤ (VideoFrame.unitIndices (first :: rest)).card →
      ∃ result bytes, Yields jerasure ndebug fp first rest result bytes ∧
        (result = .success ∨ result = .fecSuccess) ∧
        ∀ first' rest', (∀ packet ∈ first' :: rest', frame.IsUnit packet) →
          (∀ i, i < frame.source.length → i ∈ VideoFrame.unitIndices (first' :: rest')) →
          Yields jerasure ndebug fp first' rest' .success bytes) ∧
    ((VideoFrame.unitIndices (first :: rest)).card < frame.source.length →
      ∃ bytes, Yields jerasure ndebug fp first rest .fecFailed bytes) := by
  have allocated := reached_allocated reached
  have slots : frame.fecSlots = frame.fec.length := by
    have positive := List.length_pos_iff.mpr some_fec
    rw [VideoFrame.fecSlots, if_neg (by omega)]
  have few' : frame.source.length + frame.fecSlots ≤ unitSlotsMax := by rwa [slots]
  obtain ⟨started, received, slots, buf, done, put, holding⟩ :=
    receive_frame frame some_source few' allocated units
  constructor
  · intro enough
    obtain ⟨fp', result, flushed, good⟩ :=
      holding.flush_enough some_source some_fec few encoded restores ndebug enough
    refine ⟨result, _, ⟨started, received, fp', done, put, flushed⟩, good, ?_⟩
    intro first' rest' units' complete
    obtain ⟨started', received', slots', buf', done', put', holding'⟩ :=
      receive_frame frame some_source few' allocated units'
    obtain ⟨fp'', flushed'⟩ := holding'.flush_complete some_source complete jerasure ndebug _
    exact ⟨started', received', fp'', done', put', flushed'⟩
  · intro short
    obtain ⟨fp', bytes, flushed⟩ :=
      holding.flush_short some_source some_fec few encoded restores ndebug short
    exact ⟨bytes, started, received, fp', done, put, flushed⟩

/-- The code for one source and one FEC unit, which are the same. -/
def copyDecoder : Jerasure where
  codingMatrix k m := k == 1 && m == 1
  matrixDecode _ _ erasures units :=
    match erasures, units with
    | [], [a, b] => (true, [a, b])
    | [0], [a, b] => if a.length = b.length then (true, [b, b]) else (false, [a, b])
    | [1], [a, b] => if a.length = b.length then (true, [a, a]) else (false, [a, b])
    | _, units => (false, units)
  decode_shape k m erasures units := by
    split
    · rfl
    · split
      · rename_i same
        simp [same]
      · rfl
    · split
      · rename_i same
        simp [same]
      · rfl
    · rfl

theorem copyDecoder_restores (size : Nat) : Restores copyDecoder id 1 1 size where
  matrix := rfl
  decode := by
    intro source units erasures sourceCount sourceSize count sizes nodup inside same
    obtain ⟨s, rfl⟩ := List.length_eq_one_iff.mp sourceCount
    obtain ⟨a, b, rfl⟩ := List.length_eq_two.mp count
    have first := same 0 (by decide)
    have second := same 1 (by decide)
    simp only [id_eq, List.singleton_append, List.getElem?_cons_zero, List.getElem?_cons_succ,
      Option.some.injEq] at first second
    have lengths : a.length = b.length := by rw [sizes a (by simp), sizes b (by simp)]
    match erasures with
    | [] =>
        rw [if_pos (by decide), first (by simp), second (by simp)]
        rfl
    | [0] =>
        rw [if_pos (by decide), ← second (by simp)]
        simp [copyDecoder, lengths]
    | [1] =>
        rw [if_pos (by decide), ← first (by simp)]
        simp [copyDecoder, lengths]
    | [i + 2] =>
        have bound := inside (i + 2) (by simp)
        omega
    | i :: j :: rest =>
        rw [if_neg (by simp)]
        simp [copyDecoder]

def copiedUnit : VideoFrame where
  unitSize := 3
  source := [[0, 0, 5]]
  fec := [[0, 0, 5]]
  source_size := by decide
  fec_size := by decide

theorem recovers_copied_unit :
    ∃ result bytes, Yields copyDecoder false init (.ofVideoUnit 1 2 1 [0, 0, 5] (by decide)) []
        result bytes ∧
      (result = .success ∨ result = .fecSuccess) ∧
      ∀ first' rest', (∀ packet ∈ first' :: rest', copiedUnit.IsUnit packet) →
        (∀ i, i < copiedUnit.source.length → i ∈ VideoFrame.unitIndices (first' :: rest')) →
        Yields copyDecoder false init first' rest' .success bytes := by
  apply (@recovers_iff_enough copyDecoder false [] init [] rfl copiedUnit (by decide) (by decide)
    (by decide) id rfl (copyDecoder_restores 3) (.ofVideoUnit 1 2 1 [0, 0, 5] (by decide)) [] ?_).1
  · decide
  · intro packet member
    obtain rfl := List.mem_singleton.mp member
    exact ⟨rfl, rfl, rfl, by decide, rfl⟩

end FrameProcessor
end Chiaki
