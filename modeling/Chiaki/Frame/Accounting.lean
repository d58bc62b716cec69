import Chiaki.Frame.Reachable
import Chiaki.Frame.Fec

/-!
# Frame accounting

What the frame processor reports as lost and what it lists as erased. The counts are exact except after three
slips: the exits of `alloc_frame` before the received counts are reset, the index behind the last slot, and a
second flush after error correction has filled the slots.
-/

namespace Chiaki
open Memory Machine

namespace FrameProcessor

def expected (fp : FrameProcessor) : Nat := fp.unitsSourceExpected + fp.unitsFecExpected
def received (fp : FrameProcessor) : Nat := fp.unitsSourceReceived + fp.unitsFecReceived

namespace Accounting

/-- The calls of the frame processor and the report. -/
inductive Use where
  | op (op : Op)
  | report

inductive Seen where
  | out (o : Out)
  | reported

def step (jerasure : Jerasure) (ndebug : Bool) (fp : FrameProcessor) : Use → Checked (FrameProcessor × Seen)
  | .op op => (FrameProcessor.step jerasure ndebug fp op).map fun r => (r.1, .out r.2)
  | .report => .ok (fp, .reported)

/-! ## What is to be shown -/

structure Covered (fp : FrameProcessor) : Prop where
  source : fp.unitsSourceReceived ≤ fp.unitsSourceExpected
  fec : fp.unitsFecReceived ≤ fp.unitsFecExpected

def emptySlots (fp : FrameProcessor) : List Nat :=
  (List.range' 0 fp.expected).filter ((fp.unitSlots.getD []).getD · 0 = 0)

/-- The list of erasures has as many entries as units are missing, and the loop fills all of them. -/
structure ErasuresExact (fp : FrameProcessor) : Prop where
  count : fp.erasuresCount = fp.expected - fp.received
  length : (emptySlots fp).length = fp.erasuresCount
  found : findErasures fp.unitSlots fp.erasuresCount fp.expected 0 [] = .ok (some (emptySlots fp))

def Exact (jerasure : Jerasure) (ndebug : Bool) (fp : FrameProcessor) : Use → Prop
  | .op (.allocFrame _ _) => True
  | .op (.putUnit packet) =>
      FrameProcessor.step jerasure ndebug fp (.putUnit packet) ≠ .error .outOfBounds ∧
        FrameProcessor.step jerasure ndebug fp (.putUnit packet) ≠ .error .nullPointer
  | .op (.flush _) => Covered fp ∧
      (fp.unitsSourceReceived < fp.unitsSourceExpected → fp.flushed = false → ErasuresExact fp)
  | .report => Covered fp ∧ fp.reportPacketStats = (fp.received, fp.expected - fp.received)

def ExactRun (jerasure : Jerasure) (ndebug : Bool) (uses : List Use) : Prop :=
  ∀ done use, done ++ [use] <+: uses →
    ∀ fp os, run (step jerasure ndebug) init done = .ok (fp, os) → Exact jerasure ndebug fp use

/-! ## When it holds -/

/-- What the counts and the slots of a frame processor belong to. -/
inductive Stage where
  /-- one frame -/
  | whole
  /-- one frame whose slots error correction has filled -/
  | restored
  /-- a frame for which nothing is counted yet, over the slots of an older one -/
  | halfway
  /-- a frame with the counts of an older one -/
  | mixed
  deriving DecidableEq

/-- `alloc_frame` gets as far as resetting the counts. -/
def Resets (packet : TakionAVPacket) : Prop :=
  ∃ size, unitSize packet (sourceUnits packet) = some size ∧ size ≠ 0

instance (packet : TakionAVPacket) : Decidable (Resets packet) :=
  inferInstanceAs (Decidable (∃ size ∈ unitSize packet (sourceUnits packet), size ≠ 0))

instance (fp : FrameProcessor) (packet : TakionAVPacket) (outcome : AllocOutcome) :
    Decidable (Completes fp packet outcome) :=
  inferInstanceAs (Decidable (∃ size ∈ unitSize packet (sourceUnits packet), _))

def nextStage (fp : FrameProcessor) (stage : Stage) : Use → Seen → Stage
  | .op (.allocFrame packet outcome), _ =>
      if packet.unitsInFrameTotal < packet.unitsInFrameFec then stage
      else if Completes fp packet outcome then .whole
      else if Resets packet ∨ fp.received = 0 then .halfway
      else .mixed
  | .op (.flush _), .out (.flushed .fecSuccess _) => .restored
  | _, _ => stage

/-- The unit has a slot, and the slot has its place in the buffer. -/
def Placed (fp : FrameProcessor) (packet : TakionAVPacket) : Prop :=
  ∃ slots buf, fp.unitSlots = some slots ∧ fp.frameBuf = some buf ∧ packet.unitIndex < slots.length ∧
    packet.unitIndex * fp.bufStridePerUnit + packet.data.length ≤ buf.length

def Admits (fp : FrameProcessor) (stage : Stage) : Use → Prop
  | .op (.allocFrame _ _) => True
  | .op (.putUnit packet) => SizeChecked fp packet → packet.unitIndex ≤ fp.unitSlotsSize →
      match stage with
      | .whole | .restored => packet.unitIndex ≠ fp.unitSlotsSize
      | .halfway => packet.unitIndex < fp.expected ∧ Placed fp packet
      | .mixed => Placed fp packet
  | .op (.flush _) => stage ≠ .mixed ∧
      (fp.unitsSourceReceived < fp.unitsSourceExpected → fp.flushed = false → stage = .whole)
  | .report => stage ≠ .mixed

def AdmittedRun (jerasure : Jerasure) (ndebug : Bool) : FrameProcessor → Stage → List Use → Prop
  | _, _, [] => True
  | fp, stage, use :: uses => Admits fp stage use ∧
      ∀ fp' o, step jerasure ndebug fp use = .ok (fp', o) →
        AdmittedRun jerasure ndebug fp' (nextStage fp stage use o) uses

/-- `units_in_frame_total` has 16 bits. -/
def Use.Typed : Use → Prop
  | .op (.allocFrame packet _) => packet.unitsInFrameTotal < 2 ^ 16
  | _ => True

/-! ## Filled slots -/

def filled (slots : List Nat) (low high : Nat) : Finset Nat :=
  (Finset.Ico low high).filter (slots.getD · 0 ≠ 0)

theorem filled_replicate (n low high : Nat) : filled (List.replicate n 0) low high = ∅ := by
  apply Finset.filter_false_of_mem
  intro i _
  rw [List.getD_eq_getElem?_getD, List.getElem?_replicate]
  split <;> simp

theorem card_filled_le (slots : List Nat) (low high : Nat) : (filled slots low high).card ≤ high - low := by
  calc (filled slots low high).card ≤ (Finset.Ico low high).card := Finset.card_filter_le _ _
    _ = high - low := Nat.card_Ico low high

theorem card_filled_mono {slots slots' : List Nat} (grows : ∀ i, slots.getD i 0 ≠ 0 → slots'.getD i 0 ≠ 0)
    (low high : Nat) : (filled slots low high).card ≤ (filled slots' low high).card :=
  Finset.card_le_card (Finset.monotone_filter_right _ fun i _ there => grows i there)

theorem card_filled_add (slots : List Nat) {low mid high : Nat} (first : low ≤ mid) (second : mid ≤ high) :
    (filled slots low mid).card + (filled slots mid high).card = (filled slots low high).card := by
  rw [filled, filled, filled, ← Finset.Ico_union_Ico_eq_Ico first second, Finset.filter_union,
    Finset.card_union_of_disjoint]
  exact Finset.disjoint_filter_filter (Finset.Ico_disjoint_Ico_consecutive low mid high)

section Set
variable {slots : List Nat} {i size : Nat} (index : i < slots.length) (empty : slots.getD i 0 = 0)
variable (some_size : size ≠ 0)
include index some_size

theorem getD_set (j : Nat) : (slots.set i size).getD j 0 ≠ 0 ↔ j = i ∨ slots.getD j 0 ≠ 0 := by
  rw [List.getD_eq_getElem?_getD, List.getElem?_set]
  by_cases same : i = j
  · subst same
    simp [index, some_size]
  · rw [if_neg same, ← List.getD_eq_getElem?_getD]
    exact ⟨.inr, fun h => h.resolve_left (Ne.symm same)⟩

include empty in
theorem card_filled_set (low high : Nat) :
    (filled (slots.set i size) low high).card =
      (filled slots low high).card + if low ≤ i ∧ i < high then 1 else 0 := by
  by_cases inside : low ≤ i ∧ i < high
  · have grown : filled (slots.set i size) low high = insert i (filled slots low high) := by
      ext j
      simp only [filled, Finset.mem_filter, Finset.mem_insert, Finset.mem_Ico, getD_set index some_size j]
      constructor
      · rintro ⟨bounds, rfl | there⟩
        · exact .inl rfl
        · exact .inr ⟨bounds, there⟩
      · rintro (rfl | ⟨bounds, there⟩)
        · exact ⟨inside, .inl rfl⟩
        · exact ⟨bounds, .inr there⟩
    have new : i ∉ filled slots low high := fun member => (Finset.mem_filter.mp member).2 empty
    rw [if_pos inside, grown, Finset.card_insert_of_notMem new]
  · have same : filled (slots.set i size) low high = filled slots low high := by
      apply Finset.filter_congr
      intro j bounds
      rw [getD_set index some_size j]
      refine ⟨fun h => h.resolve_left ?_, .inr⟩
      rintro rfl
      exact inside (Finset.mem_Ico.mp bounds)
    rw [if_neg inside, same, Nat.add_zero]

end Set

/-! ## What the calls leave alone -/

structure SameCounts (fp fp' : FrameProcessor) : Prop where
  sourceExpected : fp'.unitsSourceExpected = fp.unitsSourceExpected
  fecExpected : fp'.unitsFecExpected = fp.unitsFecExpected
  sourceReceived : fp'.unitsSourceReceived = fp.unitsSourceReceived
  fecReceived : fp'.unitsFecReceived = fp.unitsFecReceived

theorem SameCounts.refl (fp : FrameProcessor) : SameCounts fp fp := ⟨rfl, rfl, rfl, rfl⟩

theorem SameCounts.trans {fp fp' fp'' : FrameProcessor} (h : SameCounts fp fp') (h' : SameCounts fp' fp'') :
    SameCounts fp fp'' :=
  ⟨h'.sourceExpected.trans h.sourceExpected, h'.fecExpected.trans h.fecExpected,
    h'.sourceReceived.trans h.sourceReceived, h'.fecReceived.trans h.fecReceived⟩

theorem allocSlots_counts (fp : FrameProcessor) (ok : Bool) : SameCounts fp (fp.allocSlots ok).1 := by
  unfold allocSlots
  dsimp only
  split
  · exact .refl fp
  split
  · split <;> exact ⟨rfl, rfl, rfl, rfl⟩
  · exact .refl fp

theorem clearSlots_counts {fp fp' : FrameProcessor} (h : fp.clearSlots = .ok fp') : SameCounts fp fp' := by
  obtain ⟨slots, -, h⟩ := bind_eq_ok h
  obtain ⟨slots', -, h⟩ := bind_eq_ok h
  obtain rfl := Except.ok.inj h
  exact ⟨rfl, rfl, rfl, rfl⟩

theorem allocFrameBuf_counts (fp : FrameProcessor) (ok : Bool) : SameCounts fp (fp.allocFrameBuf ok).1 := by
  unfold allocFrameBuf
  dsimp only
  split
  · exact .refl fp
  split
  · split <;> exact ⟨rfl, rfl, rfl, rfl⟩
  · exact .refl fp

theorem clearFrameBuf_counts {fp fp' : FrameProcessor} (h : fp.clearFrameBuf = .ok fp') : SameCounts fp fp' := by
  obtain ⟨buf, -, h⟩ := bind_eq_ok h
  obtain ⟨buf', -, h⟩ := bind_eq_ok h
  obtain rfl := Except.ok.inj h
  exact ⟨rfl, rfl, rfl, rfl⟩

theorem allocBuffers_counts {fp fp' : FrameProcessor} {outcome : AllocOutcome} {err : ErrorCode}
    (h : fp.allocBuffers outcome = .ok (fp', err)) : SameCounts fp fp' := by
  have slots := allocSlots_counts fp outcome.slots
  unfold allocBuffers at h
  generalize fp.allocSlots outcome.slots = allocated at slots h
  obtain ⟨fp1, failed | _⟩ := allocated
  · obtain ⟨fp2, cleared, h⟩ := bind_eq_ok h
    have cleared := clearSlots_counts cleared
    have buf := allocFrameBuf_counts fp2 outcome.frameBuf
    unfold prepareFrameBuf at h
    generalize fp2.allocFrameBuf outcome.frameBuf = allocated at buf h
    obtain ⟨fp3, failed | _⟩ := allocated
    · obtain ⟨fp4, blank, h⟩ := bind_eq_ok h
      obtain ⟨rfl, -⟩ := Prod.mk.inj (Except.ok.inj h)
      exact ((slots.trans cleared).trans buf).trans (clearFrameBuf_counts blank)
    · obtain ⟨rfl, -⟩ := Prod.mk.inj (Except.ok.inj h)
      exact (slots.trans cleared).trans buf
  · obtain ⟨rfl, -⟩ := Prod.mk.inj (Except.ok.inj h)
    exact slots

/-- A call that does not complete has the counts of the new frame, or the expected ones of the new frame and the
received ones of the old one. -/
theorem allocFrame_counts {fp fp' : FrameProcessor} {packet : TakionAVPacket} {outcome : AllocOutcome}
    {err : ErrorCode} (enough : ¬ packet.unitsInFrameTotal < packet.unitsInFrameFec)
    (h : fp.allocFrame packet outcome = .ok (fp', err)) :
    fp'.unitsSourceExpected = sourceUnits packet ∧ fp'.unitsFecExpected = fecUnits packet ∧
      fp'.unitsSourceReceived = (if Resets packet then 0 else fp.unitsSourceReceived) ∧
      fp'.unitsFecReceived = (if Resets packet then 0 else fp.unitsFecReceived) := by
  by_cases resets : Resets packet
  · obtain ⟨size, hsize, positive⟩ := resets
    rw [allocFrame_eq outcome enough hsize positive] at h
    obtain ⟨source, fec, source', fec'⟩ := allocBuffers_counts h
    rw [if_pos ⟨size, hsize, positive⟩, if_pos ⟨size, hsize, positive⟩]
    exact ⟨source, fec, source', fec'⟩
  · rw [if_neg resets, if_neg resets]
    rw [allocFrame, if_neg enough] at h
    dsimp only at h
    have unit : unitSize packet (fp.expectUnits packet).unitsSourceExpected =
      unitSize packet (sourceUnits packet) := rfl
    rw [unit] at h
    cases hsize : unitSize packet (sourceUnits packet) with
    | none =>
        rw [hsize] at h
        obtain ⟨rfl, -⟩ := Prod.mk.inj (Except.ok.inj h)
        exact ⟨rfl, rfl, rfl, rfl⟩
    | some size =>
        have zero : size = 0 := by
          by_contra positive
          exact resets ⟨size, hsize, positive⟩
        rw [hsize] at h
        dsimp only at h
        rw [if_pos zero] at h
        obtain ⟨rfl, -⟩ := Prod.mk.inj (Except.ok.inj h)
        exact ⟨rfl, rfl, rfl, rfl⟩

/-- A flush changes no count and empties no slot. -/
structure Refills (fp fp' : FrameProcessor) : Prop extends SameCounts fp fp' where
  grows : ∀ i, (fp.unitSlots.getD []).getD i 0 ≠ 0 → (fp'.unitSlots.getD []).getD i 0 ≠ 0

theorem Refills.refl (fp : FrameProcessor) : Refills fp fp := ⟨.refl fp, fun _ there => there⟩

theorem restoreSizes_grows {fp : FrameProcessor} {left i : Nat} {slots slots' : Option (List Nat)}
    (h : fp.restoreSizes left i slots = .ok slots') (j : Nat) (there : (slots.getD []).getD j 0 ≠ 0) :
    (slots'.getD []).getD j 0 ≠ 0 := by
  induction left generalizing i slots with
  | zero =>
      obtain rfl := Except.ok.inj h
      exact there
  | succ left ih =>
      obtain ⟨buf, -, h⟩ := bind_eq_ok h
      obtain ⟨head, -, h⟩ := bind_eq_ok h
      split at h
      · obtain ⟨-, -, h⟩ := bind_eq_ok h
        exact ih h there
      · rename_i padded
        obtain ⟨size, read, h⟩ := bind_eq_ok h
        apply ih h
        obtain ⟨list, here, read⟩ := bind_eq_ok read
        rw [deref_eq_ok here] at there ⊢
        obtain ⟨index, -⟩ := List.getElem?_eq_some_iff.mp (inBounds_eq_ok read)
        exact (getD_set index (by omega) j).mpr (.inr there)

/-- Slots are filled by error correction only, which is tried for missing source units only. -/
theorem correct_refills {jerasure : Jerasure} {ndebug : Bool} {outcome : FlushOutcome}
    {fp fp' : FrameProcessor} {result : FlushResult}
    (h : fp.correct jerasure ndebug outcome = .ok (fp', result)) :
    Refills fp fp' ∧ (result = .fecSuccess → fp.unitsSourceReceived < fp.unitsSourceExpected) ∧
      (result ≠ .fecSuccess → fp'.unitSlots = fp.unitSlots) := by
  unfold correct at h
  split at h
  · rename_i missing
    obtain ⟨⟨fp1, err⟩, corrected, h⟩ := bind_eq_ok h
    obtain ⟨rfl, rfl⟩ := Prod.mk.inj (Except.ok.inj h)
    have kept : Refills fp fp1 ∧ (err ≠ .success → fp1.unitSlots = fp.unitSlots) := by
      unfold fec at corrected
      split at corrected
      · obtain ⟨rfl, rfl⟩ := Prod.mk.inj (Except.ok.inj corrected)
        exact ⟨.refl fp, fun _ => rfl⟩
      obtain ⟨found, -, corrected⟩ := bind_eq_ok corrected
      cases found with
      | none =>
          obtain ⟨-, -, corrected⟩ := bind_eq_ok corrected
          obtain ⟨rfl, rfl⟩ := Prod.mk.inj (Except.ok.inj corrected)
          exact ⟨.refl fp, fun _ => rfl⟩
      | some found =>
          obtain ⟨-, -, corrected⟩ := bind_eq_ok corrected
          obtain ⟨r, -, corrected⟩ := bind_eq_ok corrected
          split at corrected
          · obtain ⟨rfl, rfl⟩ := Prod.mk.inj (Except.ok.inj corrected)
            exact ⟨⟨⟨rfl, rfl, rfl, rfl⟩, fun _ there => there⟩, fun _ => rfl⟩
          · obtain ⟨slots, restored, corrected⟩ := bind_eq_ok corrected
            obtain ⟨rfl, rfl⟩ := Prod.mk.inj (Except.ok.inj corrected)
            exact ⟨⟨⟨rfl, rfl, rfl, rfl⟩, restoreSizes_grows restored⟩, fun no => absurd rfl no⟩
    refine ⟨kept.1, fun _ => missing, fun no => kept.2 fun success => no ?_⟩
    rw [if_pos success]
  · obtain ⟨rfl, rfl⟩ := Prod.mk.inj (Except.ok.inj h)
    exact ⟨.refl fp, by simp, fun _ => rfl⟩

theorem flush_refills {jerasure : Jerasure} {ndebug : Bool} {outcome : FlushOutcome}
    {fp fp' : FrameProcessor} {result : FlushResult} {frame : Option Bytes}
    (h : fp.flush jerasure ndebug outcome = .ok (fp', result, frame)) :
    Refills fp fp' ∧
      (result = .fecSuccess → fp.unitsSourceReceived < fp.unitsSourceExpected ∧ fp.flushed = false) ∧
      (result ≠ .fecSuccess → fp'.unitSlots = fp.unitSlots) := by
  unfold flush at h
  split at h
  · obtain ⟨rfl, rfl, -⟩ := by simpa using Except.ok.inj h
    exact ⟨.refl fp, by simp, fun _ => rfl⟩
  rename_i going
  obtain ⟨⟨fp1, result1⟩, corrected, h⟩ := bind_eq_ok h
  obtain ⟨⟨buf, cur⟩, -, h⟩ := bind_eq_ok h
  obtain ⟨rfl, ended⟩ := Prod.mk.inj (Except.ok.inj h)
  obtain ⟨rfl, -⟩ := Prod.mk.inj ended
  obtain ⟨⟨counts, grows⟩, missing, slots⟩ := correct_refills corrected
  refine ⟨⟨counts.trans ⟨rfl, rfl, rfl, rfl⟩, grows⟩, fun success => ⟨missing success, ?_⟩, slots⟩
  cases flushed : fp.flushed with
  | false => rfl
  | true => exact absurd (by simp [flushed]) going

/-! ## The invariant -/

def sourceFilled (fp : FrameProcessor) : Nat := (filled (fp.unitSlots.getD []) 0 fp.unitsSourceExpected).card

def fecFilled (fp : FrameProcessor) : Nat :=
  (filled (fp.unitSlots.getD []) fp.unitsSourceExpected fp.expected).card

/-- Every unit counted has a slot, and in a frame as it arrived every filled slot is counted. -/
structure Tally (fp : FrameProcessor) (stage : Stage) : Prop extends Allocated fp where
  small : fp.expected ≤ 2 ^ 16
  covered : stage ≠ .mixed → fp.unitsSourceReceived ≤ sourceFilled fp ∧ fp.unitsFecReceived ≤ fecFilled fp
  ready : stage = .whole ∨ stage = .restored → Ready fp
  exact : stage = .whole → fp.unitsSourceReceived = sourceFilled fp ∧ fp.unitsFecReceived = fecFilled fp

theorem init_tally : Tally init .whole where
  toAllocated := init_allocated
  small := by decide
  covered _ := ⟨Nat.zero_le _, Nat.zero_le _⟩
  ready _ := init_ready
  exact _ := ⟨rfl, rfl⟩

section Tally
variable {fp : FrameProcessor} {stage : Stage} (h : Tally fp stage)
include h

theorem Tally.coveredCounts (fresh : stage ≠ .mixed) : Covered fp := by
  obtain ⟨source, fec⟩ := h.covered fresh
  have sourceCard := card_filled_le (fp.unitSlots.getD []) 0 fp.unitsSourceExpected
  have fecCard := card_filled_le (fp.unitSlots.getD []) fp.unitsSourceExpected fp.expected
  rw [← sourceFilled] at sourceCard
  rw [← fecFilled, expected, Nat.add_sub_cancel_left] at fecCard
  exact ⟨by omega, by omega⟩

theorem Tally.reported (fresh : stage ≠ .mixed) :
    fp.reportPacketStats = (fp.received, fp.expected - fp.received) := by
  obtain ⟨source, fec⟩ := h.coveredCounts fresh
  have small := h.small
  simp only [expected] at small
  simp only [reportPacketStats, received, expected]
  congr 1 <;> omega

theorem Tally.received_eq (whole : stage = .whole) :
    fp.received = (filled (fp.unitSlots.getD []) 0 fp.expected).card := by
  obtain ⟨source, fec⟩ := h.exact whole
  have inside : fp.unitsSourceExpected ≤ fp.expected := Nat.le_add_right _ _
  rw [received, source, fec, sourceFilled, fecFilled, card_filled_add _ (Nat.zero_le _) inside]

omit h in
theorem emptySlots_length (fp : FrameProcessor) :
    (emptySlots fp).length = fp.expected - (filled (fp.unitSlots.getD []) 0 fp.expected).card := by
  have indices : (emptySlots fp).toFinset =
      Finset.Ico 0 fp.expected \ filled (fp.unitSlots.getD []) 0 fp.expected := by
    ext i
    simp only [emptySlots, filled, List.mem_toFinset, List.mem_filter, List.mem_range'_1, Finset.mem_sdiff,
      Finset.mem_filter, Finset.mem_Ico, decide_eq_true_eq]
    omega
  have nodup : (emptySlots fp).Nodup := List.Nodup.filter _ List.nodup_range'
  have inside : filled (fp.unitSlots.getD []) 0 fp.expected ⊆ Finset.Ico 0 fp.expected := Finset.filter_subset _ _
  rw [← List.toFinset_card_of_nodup nodup, indices, Finset.card_sdiff_of_subset inside, Nat.card_Ico, Nat.sub_zero]

theorem Tally.erasures (whole : stage = .whole) (missing : fp.unitsSourceReceived < fp.unitsSourceExpected) :
    ErasuresExact fp := by
  have ready := h.ready (.inl whole)
  have slotsSize := ready.slotsSize_eq
  obtain ⟨slots, -, hslots, -, slots_length, -⟩ := ready.blocks (by omega)
  have counts := h.received_eq whole
  have card := card_filled_le (fp.unitSlots.getD []) 0 fp.expected
  have small := h.small
  have count : fp.erasuresCount = fp.expected - fp.received := by
    simp only [expected, received] at small counts card ⊢
    rw [erasuresCount]
    omega
  have length : (emptySlots fp).length = fp.erasuresCount := by
    rw [emptySlots_length, ← counts, count]
  refine ⟨count, length, ?_⟩
  simp only [emptySlots, hslots, Option.getD_some] at length ⊢
  rw [findErasures_eq slots _ _ 0 [] (by rw [expected]; omega), List.nil_append]
  rw [List.length_nil, Nat.zero_add]
  exact length.le

/-! ## What every call keeps -/

theorem allocFrame_tally {packet : TakionAVPacket} (typed : packet.unitsInFrameTotal < 2 ^ 16)
    (outcome : AllocOutcome) (seen : Seen) :
    ∃ fp' err, fp.allocFrame packet outcome = .ok (fp', err) ∧
      Tally fp' (nextStage fp stage (.op (.allocFrame packet outcome)) seen) := by
  simp only [nextStage]
  by_cases fewer : packet.unitsInFrameTotal < packet.unitsInFrameFec
  · rw [if_pos fewer]
    exact ⟨fp, _, allocFrame_rejected outcome fewer, h⟩
  rw [if_neg fewer]
  have few : sourceUnits packet + fecUnits packet ≤ 2 ^ 16 := by
    rw [sourceUnits, fecUnits]
    split <;> omega
  by_cases completes : Completes fp packet outcome
  · rw [if_pos completes]
    obtain ⟨fp', size, done, -, positive, started⟩ := allocFrame_completes h.toAllocated fewer completes
    have empty (low high : Nat) : (filled (fp'.unitSlots.getD []) low high).card = 0 := by
      rw [started.slots_eq, Option.getD_some, filled_replicate, Finset.card_empty]
    refine ⟨fp', _, done, started.allocated, ?_, ?_, ?_, ?_⟩
    · rw [expected, started.source_eq, started.fec_eq]
      exact few
    · intro _
      rw [started.sourceReceived_eq, started.fecReceived_eq]
      exact ⟨Nat.zero_le _, Nat.zero_le _⟩
    · intro _
      exact started.ready positive (fecUnits_pos packet)
    · intro _
      rw [started.sourceReceived_eq, started.fecReceived_eq, sourceFilled, fecFilled, empty, empty]
      exact ⟨rfl, rfl⟩
  · rw [if_neg completes]
    obtain ⟨fp', err, done, -, allocated⟩ := allocFrame_incomplete h.toAllocated fewer completes
    obtain ⟨source, fec, source', fec'⟩ := allocFrame_counts fewer done
    refine ⟨fp', err, done, allocated, ?_, ?_, ?_, ?_⟩
    · rw [expected, source, fec]
      exact few
    · intro fresh
      have none : Resets packet ∨ fp.received = 0 := by
        by_contra mixed
        exact fresh (if_neg mixed)
      rw [received] at none
      have zero : fp'.unitsSourceReceived = 0 ∧ fp'.unitsFecReceived = 0 := by
        rw [source', fec']
        by_cases resets : Resets packet
        · rw [if_pos resets, if_pos resets]
          exact ⟨rfl, rfl⟩
        · rw [if_neg resets, if_neg resets]
          have := none.resolve_left resets
          omega
      rw [zero.1, zero.2]
      exact ⟨Nat.zero_le _, Nat.zero_le _⟩
    · split <;> simp
    · split <;> simp

omit h in
theorem countUnit_fields (fp : FrameProcessor) (i : Nat) :
    (fp.countUnit i).unitsSourceExpected = fp.unitsSourceExpected ∧
      (fp.countUnit i).unitsFecExpected = fp.unitsFecExpected ∧
      (fp.countUnit i).unitSlots = fp.unitSlots ∧
      (fp.countUnit i).unitsSourceReceived = fp.unitsSourceReceived + (if i < fp.unitsSourceExpected then 1 else 0) ∧
      (fp.countUnit i).unitsFecReceived = fp.unitsFecReceived + (if i < fp.unitsSourceExpected then 0 else 1) := by
  unfold countUnit
  split <;> exact ⟨rfl, rfl, rfl, rfl, rfl⟩

/-- A unit that is stored fills one slot of its kind and is counted once. -/
theorem stored_tally {packet : TakionAVPacket} {fp' : FrameProcessor} {slots : List Nat} {buf : Bytes}
    (hslots : fp.unitSlots = some slots) (index : packet.unitIndex < slots.length)
    (inside : stage ≠ .mixed → packet.unitIndex < fp.expected) (some_data : packet.dataSize ≠ 0)
    (empty : slots.getD packet.unitIndex 0 = 0)
    (stored : fp' = { fp with
      unitSlots := some (slots.set packet.unitIndex packet.dataSize)
      frameBuf := some buf }.countUnit packet.unitIndex)
    (allocated : Allocated fp') (ready : stage = .whole ∨ stage = .restored → Ready fp') : Tally fp' stage := by
  obtain ⟨source, fec, slots', source', fec'⟩ := countUnit_fields { fp with
    unitSlots := some (slots.set packet.unitIndex packet.dataSize), frameBuf := some buf } packet.unitIndex
  rw [← stored] at source fec slots' source' fec'
  have expected_eq : fp'.expected = fp.expected := by rw [expected, expected, source, fec]
  have sourceFilled_eq : sourceFilled fp' =
      sourceFilled fp + if packet.unitIndex < fp.unitsSourceExpected then 1 else 0 := by
    rw [sourceFilled, sourceFilled, slots', source, hslots, Option.getD_some, Option.getD_some,
      card_filled_set index empty some_data]
    simp
  have fecFilled_eq : fecFilled fp' = fecFilled fp +
      if fp.unitsSourceExpected ≤ packet.unitIndex ∧ packet.unitIndex < fp.expected then 1 else 0 := by
    rw [fecFilled, fecFilled, slots', source, expected_eq, hslots, Option.getD_some, Option.getD_some,
      card_filled_set index empty some_data]
  refine ⟨allocated, expected_eq.trans_le h.small, ?_, ready, ?_⟩
  · intro fresh
    obtain ⟨source, fec⟩ := h.covered fresh
    have inside := inside fresh
    rw [source', fec', sourceFilled_eq, fecFilled_eq]
    dsimp only
    split <;> split <;> omega
  · rintro rfl
    obtain ⟨source, fec⟩ := h.exact rfl
    have inside := inside (by simp)
    rw [source', fec', sourceFilled_eq, fecFilled_eq, source, fec]
    dsimp only
    split <;> split <;> omega

theorem putUnit_tally {packet : TakionAVPacket} (admits : Admits fp stage (.op (.putUnit packet))) :
    ∃ fp' err, fp.putUnit packet = .ok (fp', err) ∧ Tally fp' stage := by
  by_cases refused : ¬ SizeChecked fp packet ∨ fp.unitSlotsSize < packet.unitIndex
  · exact ⟨fp, _, putUnit_refused refused, h⟩
  rw [not_or, not_not, not_lt] at refused
  obtain ⟨checked, admitted⟩ := refused
  have guarded := admits checked admitted
  have inSlots : stage = .whole ∨ stage = .restored → packet.unitIndex < fp.unitSlotsSize := by
    rintro (rfl | rfl) <;> exact lt_of_le_of_ne admitted guarded
  have placed : Placed fp packet := by
    by_cases one : stage = .whole ∨ stage = .restored
    · have index := inSlots one
      obtain ⟨slots, buf, hslots, hbuf, slots_length, buf_length⟩ := (h.ready one).blocks (by omega)
      exact ⟨slots, buf, hslots, hbuf, by omega, (h.ready one).room checked index buf_length⟩
    · cases stage with
      | whole => simp at one
      | restored => simp at one
      | halfway => exact guarded.2
      | mixed => exact guarded
  have inside : stage ≠ .mixed → packet.unitIndex < fp.expected := by
    intro fresh
    by_cases one : stage = .whole ∨ stage = .restored
    · exact (inSlots one).trans_eq (h.ready one).slotsSize_eq
    · cases stage with
      | whole => simp at one
      | restored => simp at one
      | halfway => exact guarded.1
      | mixed => exact absurd rfl fresh
  obtain ⟨slots, buf, hslots, hbuf, index, room⟩ := placed
  rcases putUnit_placed checked admitted hslots hbuf index room with ⟨-, taken⟩ | ⟨empty, buf', -, put⟩
  · exact ⟨fp, _, taken, h⟩
  · refine ⟨_, _, put, stored_tally h hslots index inside checked.1 empty rfl
      ((putUnit_same put).allocated h.toAllocated) fun one => ?_⟩
    obtain ⟨fp', err, put', ready⟩ := putUnit_ready (h.ready one) checked (inSlots one)
    obtain ⟨rfl, -⟩ := Prod.mk.inj (Except.ok.inj (put.symm.trans put'))
    exact ready

theorem flush_tally {jerasure : Jerasure} {ndebug : Bool} {outcome : FlushOutcome}
    (admits : Admits fp stage (.op (.flush outcome))) {fp' : FrameProcessor} {result : FlushResult}
    {frame : Option Bytes} (flushed : fp.flush jerasure ndebug outcome = .ok (fp', result, frame)) :
    Tally fp' (nextStage fp stage (.op (.flush outcome)) (.out (.flushed result frame))) := by
  obtain ⟨⟨⟨source, fec, source', fec'⟩, grows⟩, success, slots⟩ := flush_refills flushed
  have expected_eq : fp'.expected = fp.expected := by rw [expected, expected, source, fec]
  obtain ⟨covered, covered'⟩ := h.covered admits.1
  have ready (one : stage = .whole ∨ stage = .restored) : Ready fp' := by
    rcases flush_ready jerasure ndebug outcome (h.ready one) with failed | ⟨fp1, r, done, ready⟩
    · cases failed.symm.trans flushed
    · obtain ⟨rfl, -⟩ := Prod.mk.inj (Except.ok.inj (done.symm.trans flushed))
      exact ready
  refine ⟨(flush_same flushed).allocated h.toAllocated, expected_eq.trans_le h.small, fun _ => ⟨?_, ?_⟩, ?_, ?_⟩
  · rw [source', sourceFilled, source]
    exact covered.trans (card_filled_mono grows _ _)
  · rw [fec', fecFilled, source, expected_eq]
    exact covered'.trans (card_filled_mono grows _ _)
  · intro one
    by_cases restored : result = .fecSuccess
    · obtain ⟨missing, active⟩ := success restored
      exact ready (.inl (admits.2 missing active))
    · apply ready
      cases result <;> first | exact one | exact absurd rfl restored
  · intro whole
    have kept : result ≠ .fecSuccess ∧ stage = .whole := by
      cases result <;> simp_all [nextStage]
    obtain ⟨exact_source, exact_fec⟩ := h.exact kept.2
    rw [source', fec', sourceFilled, fecFilled, slots kept.1, source, expected_eq]
    exact ⟨exact_source, exact_fec⟩

theorem step_exact {jerasure : Jerasure} {ndebug : Bool} {use : Use} (typed : use.Typed)
    (admits : Admits fp stage use) :
    Exact jerasure ndebug fp use ∧
      ∀ fp' seen, step jerasure ndebug fp use = .ok (fp', seen) → Tally fp' (nextStage fp stage use seen) := by
  cases use with
  | report =>
      refine ⟨⟨h.coveredCounts admits, h.reported admits⟩, fun fp' seen stepped => ?_⟩
      obtain ⟨rfl, rfl⟩ := Prod.mk.inj (Except.ok.inj stepped)
      exact h
  | op op =>
      cases op with
      | allocFrame packet outcome =>
          refine ⟨trivial, fun fp' seen stepped => ?_⟩
          obtain ⟨fp1, err, done, tally⟩ := allocFrame_tally h typed outcome seen
          rw [step, FrameProcessor.step, done] at stepped
          obtain ⟨rfl, -⟩ := Prod.mk.inj (Except.ok.inj stepped)
          exact tally
      | putUnit packet =>
          obtain ⟨fp1, err, done, tally⟩ := putUnit_tally h admits
          have stepped : FrameProcessor.step jerasure ndebug fp (.putUnit packet) = .ok (fp1, .put err) := by
            rw [FrameProcessor.step, done]
            rfl
          refine ⟨⟨by rw [stepped]; simp, by rw [stepped]; simp⟩, fun fp' seen same => ?_⟩
          rw [step, stepped] at same
          obtain ⟨rfl, rfl⟩ := Prod.mk.inj (Except.ok.inj same)
          exact tally
      | flush outcome =>
          refine ⟨⟨h.coveredCounts admits.1, fun missing active => h.erasures (admits.2 missing active) missing⟩,
            fun fp' seen stepped => ?_⟩
          rw [step, FrameProcessor.step] at stepped
          cases flushed : fp.flush jerasure ndebug outcome with
          | error fault =>
              rw [flushed] at stepped
              cases stepped
          | ok r =>
              rw [flushed] at stepped
              obtain ⟨rfl, rfl⟩ := Prod.mk.inj (Except.ok.inj stepped)
              exact flush_tally h admits flushed

end Tally

theorem run_exact {jerasure : Jerasure} {ndebug : Bool} {fp : FrameProcessor} {stage : Stage} {uses : List Use}
    (h : Tally fp stage) (typed : ∀ use ∈ uses, use.Typed) (admitted : AdmittedRun jerasure ndebug fp stage uses)
    (done : List Use) (use : Use) (before : done ++ [use] <+: uses) (t : FrameProcessor) (os : List Seen)
    (ran : run (step jerasure ndebug) fp done = .ok (t, os)) : Exact jerasure ndebug t use := by
  induction uses generalizing fp stage done os with
  | nil =>
      obtain ⟨rest, none⟩ := before
      simp at none
  | cons first uses ih =>
      obtain ⟨first_typed, later_typed⟩ := List.forall_mem_cons.mp typed
      obtain ⟨exact_first, tally⟩ := step_exact h first_typed admitted.1
      cases done with
      | nil =>
          obtain ⟨rfl, -⟩ := Prod.mk.inj (Except.ok.inj ran)
          obtain rfl : use = first := by simpa using before
          exact exact_first
      | cons first' done =>
          obtain ⟨rfl, later⟩ : first' = first ∧ done ++ [use] <+: uses := by simpa using before
          obtain ⟨fp', seen, os', stepped, rest, -⟩ := run_cons_inv ran
          exact ih (tally fp' seen stepped) later_typed (admitted.2 fp' seen stepped) done later os' rest

/-- The counts are exact in every run without the three slips. -/
theorem exact_of_admitted (jerasure : Jerasure) (ndebug : Bool) {uses : List Use} (typed : ∀ use ∈ uses, use.Typed)
    (admitted : AdmittedRun jerasure ndebug init .whole uses) : ExactRun jerasure ndebug uses :=
  run_exact init_tally typed admitted

def oneUnit : TakionAVPacket := .ofVideoUnit 0 3 1 [0, 0, 5] (by decide)

theorem exact_one_unit :
    ExactRun noMatrix false [.op (.allocFrame oneUnit ⟨true, true⟩), .op (.putUnit oneUnit), .report] := by
  apply exact_of_admitted
  · intro use member
    fin_cases member
    · exact (by decide : oneUnit.unitsInFrameTotal < 2 ^ 16)
    · trivial
    · trivial
  · have whole (seen : Seen) : nextStage init .whole (.op (.allocFrame oneUnit ⟨true, true⟩)) seen = .whole := by
      rw [nextStage, if_neg (by decide), if_pos (by decide +kernel)]
    refine ⟨trivial, fun fp seen stepped => ?_⟩
    rw [whole]
    have slotsSize : (step noMatrix false init (.op (.allocFrame oneUnit ⟨true, true⟩))).map (·.1.unitSlotsSize) =
      .ok 3 := by decide +kernel
    rw [stepped] at slotsSize
    obtain three : fp.unitSlotsSize = 3 := Except.ok.inj slotsSize
    refine ⟨fun _ _ => ?_, fun _ _ _ => ⟨by simp [nextStage, Admits], fun _ _ _ => trivial⟩⟩
    rw [three]
    exact (by decide : oneUnit.unitIndex ≠ 3)

/-- Four units of a frame, and a packet too short to say how its frame is padded. -/
def shortPacketUses : List Use :=
  .op (.allocFrame (.ofVideoUnit 0 5 1 [0, 0, 5] (by decide)) ⟨true, true⟩) ::
    ([0, 1, 2, 3].map fun i => .op (.putUnit (.ofVideoUnit i 5 1 [0, 0, 5] (by decide)))) ++
    [.op (.allocFrame (.ofVideoUnit 0 2 1 [7] (by decide)) ⟨true, true⟩)]

theorem not_exact : ¬ ExactRun noMatrix false (shortPacketUses ++ [.report]) := by
  intro exact
  have counts : (run (step noMatrix false) init shortPacketUses).map
      (fun r => (r.1.unitsSourceReceived, r.1.unitsSourceExpected)) = .ok (4, 1) := by decide +kernel
  cases ran : run (step noMatrix false) init shortPacketUses with
  | error fault =>
      rw [ran] at counts
      cases counts
  | ok r =>
      rw [ran] at counts
      obtain ⟨received, expected⟩ := Prod.mk.inj (Except.ok.inj counts)
      obtain ⟨covered, -⟩ := exact shortPacketUses .report List.prefix_rfl r.1 r.2 ran
      have few := covered.source
      rw [received, expected] at few
      omega

end Accounting
end FrameProcessor
end Chiaki
