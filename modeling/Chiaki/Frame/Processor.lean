import Chiaki.Lib.Memory
import Chiaki.Takion.AVPacket

/-!
# The frame processor

`frameprocessor.c` and the decoding half of `fec.c`. Payloads are parts of datagrams and there are at
most 256 of them in a frame, so none of the `size_t` sums and products below wraps. Whether an
allocation succeeds is an argument of the function that makes it.
-/

namespace Chiaki
open Memory

def unitSlotsMax : Nat := 256
def videoBufferPaddingSize : Nat := 64
def sizeMax : Nat := 2 ^ 64 - 1

structure StreamStats where
  frames : Nat
  bytes : Nat

/-- `chiaki_stream_stats_frame`. -/
def StreamStats.frame (stats : StreamStats) (size : Nat) : StreamStats :=
  { frames := (stats.frames + 1) % 2 ^ 64, bytes := (stats.bytes + size) % 2 ^ 64 }

structure FrameProcessor where
  frameBuf : Option Bytes
  frameBufSize : Nat
  bufSizePerUnit : Nat
  bufStridePerUnit : Nat
  unitsSourceExpected : Nat
  unitsFecExpected : Nat
  unitsSourceReceived : Nat
  unitsFecReceived : Nat
  /-- The `data_size` of every unit. -/
  unitSlots : Option (List Nat)
  unitSlotsSize : Nat
  flushed : Bool
  streamStats : StreamStats

inductive FlushResult where
  | success
  | fecSuccess
  | fecFailed
  | failed
  deriving DecidableEq, Repr

namespace FrameProcessor

/-- `chiaki_frame_processor_init`. -/
def init : FrameProcessor where
  frameBuf := none
  frameBufSize := 0
  bufSizePerUnit := 0
  bufStridePerUnit := 0
  unitsSourceExpected := 0
  unitsFecExpected := 0
  unitsSourceReceived := 0
  unitsFecReceived := 0
  unitSlots := none
  unitSlotsSize := 0
  flushed := true
  streamStats := ⟨0, 0⟩

/-! ## Allocation -/

/-- Which of the two allocations of `alloc_frame` succeed, should they be made. -/
structure AllocOutcome where
  slots : Bool
  frameBuf : Bool

def expectUnits (fp : FrameProcessor) (packet : TakionAVPacket) : FrameProcessor :=
  { fp with
    flushed := false
    unitsSourceExpected := packet.unitsInFrameTotal - packet.unitsInFrameFec
    unitsFecExpected := if packet.unitsInFrameFec < 1 then 1 else packet.unitsInFrameFec }

/-- `buf_size_per_unit`: the payload, and for a source unit of a video the padding its first two bytes
announce. `none` when these are missing. -/
def unitSize (packet : TakionAVPacket) (unitsSourceExpected : Nat) : Option Nat :=
  if packet.isVideo && packet.unitIndex < unitsSourceExpected then
    match packet.data with
    | hi :: lo :: _ => some (packet.dataSize + ntohs hi lo)
    | _ => none
  else some packet.dataSize

def stride (size : Nat) : Nat := (size + 0xf) / 0x10 * 0x10

/-- The unit slots, sized for the frame. What a new block holds is overwritten by `clearSlots`. -/
def allocSlots (fp : FrameProcessor) (ok : Bool) : FrameProcessor × Option ErrorCode :=
  let required := fp.unitsSourceExpected + fp.unitsFecExpected
  if required > unitSlotsMax then (fp, some .invalidData)
  else if required ≠ fp.unitSlotsSize then
    if ok then
      ({ fp with unitSlots := some (List.replicate required 0), unitSlotsSize := required }, none)
    else ({ fp with unitSlots := none, unitSlotsSize := 0 }, some .memory)
  else (fp, none)

def clearSlots (fp : FrameProcessor) : Checked FrameProcessor := do
  let slots ← deref fp.unitSlots
  let slots ← inBounds (write slots 0 (List.replicate fp.unitSlotsSize 0))
  pure { fp with unitSlots := some slots }

def allocFrameBuf (fp : FrameProcessor) (ok : Bool) : FrameProcessor × Option ErrorCode :=
  if fp.unitSlotsSize > sizeMax / fp.bufStridePerUnit then (fp, some .overflow)
  else
    let required := fp.unitSlotsSize * fp.bufStridePerUnit
    if fp.frameBufSize < required then
      if ok then
        ({ fp with
            frameBuf := some (List.replicate (required + videoBufferPaddingSize) 0)
            frameBufSize := required }, none)
      else ({ fp with frameBuf := none, frameBufSize := 0 }, some .memory)
    else (fp, none)

def clearFrameBuf (fp : FrameProcessor) : Checked FrameProcessor := do
  let buf ← deref fp.frameBuf
  let buf ← inBounds (write buf 0
    (List.replicate (fp.unitSlotsSize * fp.bufStridePerUnit + videoBufferPaddingSize) 0))
  pure { fp with frameBuf := some buf }

def prepareFrameBuf (fp : FrameProcessor) (ok : Bool) : Checked (FrameProcessor × ErrorCode) :=
  match fp.allocFrameBuf ok with
  | (fp, some err) => pure (fp, err)
  | (fp, none) => do
      let fp ← fp.clearFrameBuf
      pure (fp, .success)

/-- The part of `alloc_frame` that gets the memory. -/
def allocBuffers (fp : FrameProcessor) (outcome : AllocOutcome) :
    Checked (FrameProcessor × ErrorCode) :=
  match fp.allocSlots outcome.slots with
  | (fp, some err) => pure (fp, err)
  | (fp, none) => do
      let fp ← fp.clearSlots
      fp.prepareFrameBuf outcome.frameBuf

/-- `chiaki_frame_processor_alloc_frame`. -/
def allocFrame (fp : FrameProcessor) (packet : TakionAVPacket) (outcome : AllocOutcome) :
    Checked (FrameProcessor × ErrorCode) :=
  if packet.unitsInFrameTotal < packet.unitsInFrameFec then pure (fp, .invalidData)
  else
    let fp := fp.expectUnits packet
    match unitSize packet fp.unitsSourceExpected with
    | none => pure ({ fp with bufSizePerUnit := packet.dataSize }, .bufTooSmall)
    | some size =>
        let fp := { fp with bufSizePerUnit := size, bufStridePerUnit := stride size }
        if size = 0 then pure (fp, .bufTooSmall)
        else { fp with unitsSourceReceived := 0, unitsFecReceived := 0 }.allocBuffers outcome

/-! ## Units -/

/-- `memcpy` into `frame_buf`. -/
def copyToFrame (fp : FrameProcessor) (offset : Nat) (data : Bytes) : Checked FrameProcessor := do
  let buf ← deref fp.frameBuf
  let buf ← inBounds (write buf offset data)
  pure { fp with frameBuf := some buf }

/-- `unit_slots[i].data_size`. -/
def slotSize (slots : Option (List Nat)) (i : Nat) : Checked Nat := do
  let slots ← deref slots
  inBounds slots[i]?

/-- `unit_slots[i].data_size = size`. -/
def setSlot (fp : FrameProcessor) (i size : Nat) : FrameProcessor :=
  { fp with unitSlots := fp.unitSlots.map fun slots => slots.set i size }

def countUnit (fp : FrameProcessor) (unitIndex : Nat) : FrameProcessor :=
  if unitIndex < fp.unitsSourceExpected then
    { fp with unitsSourceReceived := fp.unitsSourceReceived + 1 }
  else { fp with unitsFecReceived := fp.unitsFecReceived + 1 }

/-- `chiaki_frame_processor_put_unit`. -/
def putUnit (fp : FrameProcessor) (packet : TakionAVPacket) : Checked (FrameProcessor × ErrorCode) :=
  if packet.unitIndex > fp.unitSlotsSize then pure (fp, .invalidData)
  else if packet.dataSize = 0 then pure (fp, .invalidData)
  else if packet.dataSize > fp.bufSizePerUnit then pure (fp, .invalidData)
  else do
    let size ← slotSize fp.unitSlots packet.unitIndex
    if size ≠ 0 then pure (fp, .invalidData)
    else
      let fp := fp.setSlot packet.unitIndex packet.dataSize
      let fp ← if fp.flushed then pure fp
        else fp.copyToFrame (packet.unitIndex * fp.bufStridePerUnit) packet.data
      pure (fp.countUnit packet.unitIndex, .success)

end FrameProcessor

/-! ## Error correction -/

/-- The Reed-Solomon library: whether a coding matrix exists for `k` and `m` units, and decoding, which
rewrites the units in place and reports whether it succeeded. -/
structure Jerasure where
  codingMatrix : (k m : Nat) → Bool
  matrixDecode : (k m : Nat) → (erasures : List Nat) → (units : List Bytes) → Bool × List Bytes
  decode_shape : ∀ k m erasures units,
    (matrixDecode k m erasures units).2.map List.length = units.map List.length

/-- Which allocations of a flush succeed. -/
structure FlushOutcome where
  erasures : Bool
  jerasures : Bool
  dataPtrs : Bool
  codingPtrs : Bool

/-- `chiaki_fec_decode`. -/
def fecDecode (jerasure : Jerasure) (outcome : FlushOutcome) (frameBuf : Option Bytes)
    (unitSize stride k m : Nat) (erasures : List Nat) : Checked (Option Bytes × ErrorCode) :=
  if stride < unitSize then pure (frameBuf, .invalidData)
  else if !jerasure.codingMatrix k m then pure (frameBuf, .memory)
  else if !(outcome.jerasures && outcome.dataPtrs && outcome.codingPtrs) then pure (frameBuf, .memory)
  else do
    let buf ← deref frameBuf
    let units ← inBounds (gather buf stride unitSize (k + m) 0)
    let (decoded, units) := jerasure.matrixDecode k m erasures units
    let buf ← inBounds (scatter stride units 0 buf)
    pure (some buf, if decoded then .success else .fecFailed)

namespace FrameProcessor

/-- `unsigned int` difference. -/
def erasuresCount (fp : FrameProcessor) : Nat :=
  (fp.unitsSourceExpected + fp.unitsFecExpected + 2 ^ 32 -
    (fp.unitsSourceReceived + fp.unitsFecReceived) % 2 ^ 32) % 2 ^ 32

/-- The loop that lists the empty slots; `none` when there are more of them than `count`. -/
def findErasures (slots : Option (List Nat)) (count : Nat) :
    (left i : Nat) → (found : List Nat) → Checked (Option (List Nat))
  | 0, _, found => pure (some found)
  | left + 1, i, found => do
      let size ← slotSize slots i
      if size = 0 then
        if found.length ≥ count then pure none
        else findErasures slots count left (i + 1) (found ++ [i])
      else findErasures slots count left (i + 1) found

def hexdumpSize : Nat := 0x50

/-- The read of a `chiaki_log_hexdump`. -/
def hexdump (buf : Option Bytes) (offset : Nat) : Checked Unit := do
  let buf ← deref buf
  let _ ← inBounds (read buf offset hexdumpSize)
  pure ()

def paddingOf : Bytes → Nat
  | [hi, lo] => ntohs hi lo
  | _ => 0

/-- "restore unit sizes". -/
def restoreSizes (fp : FrameProcessor) : (left i : Nat) → (slots : Option (List Nat)) →
    Checked (Option (List Nat))
  | 0, _, slots => pure slots
  | left + 1, i, slots => do
      let buf ← deref fp.frameBuf
      let head ← inBounds (read buf (fp.bufStridePerUnit * i) 2)
      if paddingOf head ≥ fp.bufSizePerUnit then do
        hexdump fp.frameBuf (fp.bufStridePerUnit * i)
        restoreSizes fp left (i + 1) slots
      else do
        let _ ← slotSize slots i
        restoreSizes fp left (i + 1)
          (slots.map fun slots => slots.set i (fp.bufSizePerUnit - paddingOf head))

/-- The part of `chiaki_frame_processor_fec` behind the list of erasures. -/
def decodeFrame (jerasure : Jerasure) (outcome : FlushOutcome) (fp : FrameProcessor)
    (erasures : List Nat) : Checked (FrameProcessor × ErrorCode) := do
  let r ← fecDecode jerasure outcome fp.frameBuf fp.bufSizePerUnit fp.bufStridePerUnit
    fp.unitsSourceExpected fp.unitsFecExpected erasures
  let fp := { fp with frameBuf := r.1 }
  if r.2 ≠ .success then pure (fp, .fecFailed)
  else do
    let slots ← fp.restoreSizes fp.unitsSourceExpected 0 fp.unitSlots
    pure ({ fp with unitSlots := slots }, .success)

/-- `chiaki_frame_processor_fec`. With `NDEBUG` the assertions are not compiled in; the entries of the
zeroed array that the loop did not reach are then erasures of unit 0. -/
def fec (jerasure : Jerasure) (ndebug : Bool) (outcome : FlushOutcome) (fp : FrameProcessor) :
    Checked (FrameProcessor × ErrorCode) :=
  if !outcome.erasures then pure (fp, .memory)
  else do
    let found ← findErasures fp.unitSlots fp.erasuresCount
      (fp.unitsSourceExpected + fp.unitsFecExpected) 0 []
    match found with
    | none => do
        assert ndebug
        pure (fp, .unknown)
    | some found => do
        assert (ndebug || found.length = fp.erasuresCount)
        fp.decodeFrame jerasure outcome
          (found ++ List.replicate (fp.erasuresCount - found.length) 0)

/-! ## Flushing -/

/-- The loop of `flush` over the source units from `i` on: every payload is moved to the cursor. -/
def compact (fp : FrameProcessor) : (left i cur : Nat) → (buf : Option Bytes) →
    Checked (Option Bytes × Nat)
  | 0, _, cur, buf => pure (buf, cur)
  | left + 1, i, cur, buf => do
      let size ← slotSize fp.unitSlots i
      if size = 0 then compact fp left (i + 1) cur buf
      else if size < 2 then do
        hexdump buf (i * fp.bufSizePerUnit)
        compact fp left (i + 1) cur buf
      else do
        let block ← deref buf
        let block ← inBounds (move block cur (i * fp.bufStridePerUnit + 2) (size - 2))
        compact fp left (i + 1) (cur + (size - 2)) (some block)

/-- The first part of `flush`: error correction if source units are missing. -/
def correct (jerasure : Jerasure) (ndebug : Bool) (outcome : FlushOutcome) (fp : FrameProcessor) :
    Checked (FrameProcessor × FlushResult) :=
  if fp.unitsSourceReceived < fp.unitsSourceExpected then do
    let r ← fp.fec jerasure ndebug outcome
    pure (r.1, if r.2 = .success then .fecSuccess else .fecFailed)
  else pure (fp, .success)

/-- `chiaki_frame_processor_flush`; the frame is the first `frame_size` bytes of the buffer. -/
def flush (jerasure : Jerasure) (ndebug : Bool) (outcome : FlushOutcome) (fp : FrameProcessor) :
    Checked (FrameProcessor × FlushResult × Option Bytes) :=
  if fp.unitsSourceExpected = 0 || fp.flushed then pure (fp, .failed, none)
  else do
    let r ← fp.correct jerasure ndebug outcome
    let c ← r.1.compact r.1.unitsSourceExpected 0 0 r.1.frameBuf
    pure ({ r.1 with frameBuf := c.1, streamStats := r.1.streamStats.frame c.2 }, r.2,
      c.1.map (·.take c.2))

/-- The units that were received and those that are missing, as `push_generation` gets them: the sums are
`unsigned int`, the difference has 64 bits. -/
def reportPacketStats (fp : FrameProcessor) : Nat × Nat :=
  let received := (fp.unitsSourceReceived + fp.unitsFecReceived) % 2 ^ 32
  let expected := (fp.unitsSourceExpected + fp.unitsFecExpected) % 2 ^ 32
  (received, (expected + 2 ^ 64 - received) % 2 ^ 64)

end FrameProcessor
end Chiaki
