import Chiaki.Bitstream.Reader

/-!
# Headers and slices

`bitstream.c`. The data stands at `address`. A slice that is not written keeps what was on the stack.
-/

namespace Chiaki
open Memory

inductive Codec where
  | h264 | h265 | h265Hdr
  deriving DecidableEq

inductive SliceType where
  | unknown | i | p
  deriving DecidableEq

structure BitstreamSlice where
  sliceType : SliceType
  referenceFrame : Nat
  deriving DecidableEq

/-- `ChiakiBitstream`. The union holds `log2_max_frame_num_minus4` of H.264 or
`log2_max_pic_order_cnt_lsb_minus4` of H.265. -/
structure Bitstream where
  codec : Codec
  sps : Nat

section Reading
variable (ndebug : Bool) (address : Nat) (data : Bytes)

/-- The turns of the loop of `skip_startcode`. -/
def seekStartcode : (left : Nat) → Vlc → Checked Vlc
  | 0, vlc => pure vlc
  | left + 1, vlc => do
      let bits ← vlc.bitsLeft
      if bits < 32 then pure vlc
      else do
        let front ← vlc.peekbits ndebug 32
        if front = 1 then pure vlc
        else do
          let vlc ← vlc.eatbits ndebug 8
          let vlc ← vlc.fillbits data
          seekStartcode left vlc

def skipStartcode (vlc : Vlc) : Checked (Vlc × Bool) := do
  let vlc ← vlc.fillbits data
  let vlc ← seekStartcode ndebug data 64 vlc
  let front ← vlc.peekbits ndebug 32
  if front ≠ 1 then pure (vlc, false)
  else do
    let vlc ← vlc.eatbits ndebug 32
    let vlc ← vlc.fillbits data
    pure (vlc, true)

/-- The header of an H.264 NAL unit: `forbidden_zero_bit`, `nal_ref_idc`, `nal_unit_type`. -/
def nalHeaderH264 (vlc : Vlc) : Checked (Vlc × Nat) := do
  let vlc ← vlc.eatbits ndebug 1
  let vlc ← vlc.eatbits ndebug 2
  vlc.getUimsbf ndebug 5

/-- The header of an H.265 NAL unit: `forbidden_zero_bit`, `nal_unit_type`, `nuh_layer_id`,
`nuh_temporal_id_plus1`. -/
def nalHeaderH265 (vlc : Vlc) : Checked (Vlc × Nat) := do
  let vlc ← vlc.eatbits ndebug 1
  let (vlc, nalUnitType) ← vlc.getUimsbf ndebug 6
  let vlc ← vlc.eatbits ndebug 6
  let vlc ← vlc.eatbits ndebug 3
  pure (vlc, nalUnitType)

/-- Fields of these widths one after the other, their values not used. -/
def skipFields : (widths : List Nat) → Rbsp → Checked Rbsp
  | [], rbsp => pure rbsp
  | width :: widths, rbsp => do
      let (rbsp, _) ← rbsp.u ndebug data width
      skipFields widths rbsp

/-- So many Exp-Golomb codes, their values not used. -/
def skipCodes : (count : Nat) → Rbsp → Checked Rbsp
  | 0, rbsp => pure rbsp
  | count + 1, rbsp => do
      let (rbsp, _) ← rbsp.ue ndebug data
      skipCodes count rbsp

/-! ## Headers -/

def hasChromaFormat (profileIdc : Nat) : Bool :=
  profileIdc ∈ [100, 110, 122, 244, 44, 83, 86, 118, 128, 138, 139, 134, 135]

/-- `chroma_format_idc`, and `separate_colour_plane_flag` if there is one. -/
def chromaFormat (rbsp : Rbsp) : Checked Rbsp := do
  let (rbsp, chromaFormatIdc) ← rbsp.ue ndebug data
  if chromaFormatIdc = 3 then skipFields ndebug data [1] rbsp else pure rbsp

/-- What the high profiles have: whether parsing goes on. -/
def highProfile (rbsp : Rbsp) : Checked (Rbsp × Bool) := do
  let rbsp ← chromaFormat ndebug data rbsp
  let rbsp ← skipCodes ndebug data 2 rbsp
  let rbsp ← skipFields ndebug data [1] rbsp
  let (rbsp, seqScalingMatrixPresent) ← rbsp.u ndebug data 1
  pure (rbsp, seqScalingMatrixPresent = 0)

/-- The last value of both headers is stored also when it is too large. -/
def storeSps (bitstream : Bitstream) (value : Nat) : Bitstream × Bool :=
  ({ bitstream with sps := value }, !decide (value > 12))

/-- `header_h264`. -/
def headerH264 (bitstream : Bitstream) : Checked (Bitstream × Bool) := do
  let vlc ← Vlc.init address data data.length
  let (vlc, found) ← skipStartcode ndebug data vlc
  if !found then pure (bitstream, false)
  else do
    let (vlc, nalUnitType) ← nalHeaderH264 ndebug vlc
    if nalUnitType ≠ 7 then pure (bitstream, false)
    else do
      let rbsp ← Rbsp.init ndebug data vlc
      let (rbsp, profileIdc) ← rbsp.u ndebug data 8
      let rbsp ← skipFields ndebug data [6, 2, 8] rbsp
      let rbsp ← skipCodes ndebug data 1 rbsp
      let (rbsp, goesOn) ← if hasChromaFormat profileIdc then highProfile ndebug data rbsp else pure (rbsp, true)
      if !goesOn then pure (bitstream, false)
      else do
        let (_, log2MaxFrameNumMinus4) ← rbsp.ue ndebug data
        pure (storeSps bitstream log2MaxFrameNumMinus4)

/-- From `sps_start` on: past every VPS to the SPS. Each turn takes six bytes. -/
def findSps : (fuel : Nat) → Vlc → Checked (Vlc × Bool)
  | 0, _ => .error .endless
  | fuel + 1, vlc => do
      let (vlc, found) ← skipStartcode ndebug data vlc
      if !found then pure (vlc, false)
      else do
        let (vlc, nalUnitType) ← nalHeaderH265 ndebug vlc
        if nalUnitType = 32 then findSps fuel vlc else pure (vlc, nalUnitType = 33)

/-- `header_h265`. -/
def headerH265 (bitstream : Bitstream) : Checked (Bitstream × Bool) := do
  let vlc ← Vlc.init address data data.length
  let (vlc, found) ← findSps ndebug data (data.length + 1) vlc
  if !found then pure (bitstream, false)
  else do
    let rbsp ← Rbsp.init ndebug data vlc
    let rbsp ← skipFields ndebug data [4, 3, 1, 2, 1, 5, 32, 1, 1, 1, 1, 32, 11, 1, 8] rbsp
    let rbsp ← skipCodes ndebug data 1 rbsp
    let rbsp ← chromaFormat ndebug data rbsp
    let rbsp ← skipCodes ndebug data 2 rbsp
    let (rbsp, conformanceWindow) ← rbsp.u ndebug data 1
    let rbsp ← if conformanceWindow ≠ 0 then skipCodes ndebug data 4 rbsp else pure rbsp
    let rbsp ← skipCodes ndebug data 2 rbsp
    let (_, log2MaxPicOrderCntLsbMinus4) ← rbsp.ue ndebug data
    pure (storeSps bitstream log2MaxPicOrderCntLsbMinus4)

/-! ## Slices -/

def sliceTypeH264 : Nat → SliceType
  | 0 | 5 => .p
  | 2 | 7 => .i
  | _ => .unknown

/-- The loop over `ref_pic_list_modification`, `left` turns of it. -/
def refPicListModification (slice : BitstreamSlice) : (left idc : Nat) → Rbsp → Checked (Bool × BitstreamSlice)
  | 0, _, _ => pure (false, slice)
  | left + 1, idc, rbsp =>
      if idc = 3 then pure (true, slice)
      else if idc > 3 then pure (false, slice)
      else do
        let (rbsp, value) ← rbsp.ue ndebug data
        let (rbsp, next) ← rbsp.ue ndebug data
        refPicListModification (if idc = 0 then { slice with referenceFrame := value } else slice) left next rbsp

/-- The part of `slice_h264` that only a NAL unit of type 1 has. -/
def referenceH264 (bitstream : Bitstream) (slice : BitstreamSlice) (rbsp : Rbsp) :
    Checked (Bool × BitstreamSlice) := do
  let slice := { slice with referenceFrame := 0 }
  let rbsp ← skipCodes ndebug data 1 rbsp
  let rbsp ← skipFields ndebug data [(bitstream.sps + 4) % 2 ^ 32] rbsp
  let (rbsp, override) ← rbsp.u ndebug data 1
  let (rbsp, override) ← if override ≠ 0 then rbsp.u ndebug data 1 else pure (rbsp, 0)
  let rbsp ← if override ≠ 0 then skipCodes ndebug data 1 rbsp else pure rbsp
  let (rbsp, modification) ← rbsp.u ndebug data 1
  if modification = 0 then pure (true, slice)
  else do
    let (rbsp, idc) ← rbsp.ue ndebug data
    refPicListModification ndebug data slice 3 idc rbsp

/-- `slice_h264`. -/
def sliceH264 (bitstream : Bitstream) (slice : BitstreamSlice) : Checked (Bool × BitstreamSlice) := do
  let vlc ← Vlc.init address data data.length
  let (vlc, found) ← skipStartcode ndebug data vlc
  if !found then pure (false, slice)
  else do
    let (vlc, nalUnitType) ← nalHeaderH264 ndebug vlc
    if nalUnitType ≠ 1 ∧ nalUnitType ≠ 5 then pure (false, slice)
    else do
      let rbsp ← Rbsp.init ndebug data vlc
      let rbsp ← skipCodes ndebug data 1 rbsp
      let (rbsp, sliceType) ← rbsp.ue ndebug data
      let slice := { slice with sliceType := sliceTypeH264 sliceType }
      if nalUnitType = 1 then referenceH264 ndebug data bitstream slice rbsp else pure (true, slice)

def sliceTypeH265 : Nat → SliceType
  | 1 => .p
  | 2 => .i
  | _ => .unknown

def noOutputOfPriorPics (nalUnitType : Nat) (rbsp : Rbsp) : Checked Rbsp :=
  if nalUnitType = 20 then skipFields ndebug data [1] rbsp else pure rbsp

/-- What comes before the slice type in both functions for H.265. -/
def beforeSliceType (nalUnitType : Nat) (rbsp : Rbsp) : Checked Rbsp := do
  let (rbsp, firstSliceSegmentInPic) ← rbsp.u ndebug data 1
  let rbsp ← noOutputOfPriorPics ndebug data nalUnitType rbsp
  let rbsp ← skipCodes ndebug data 1 rbsp
  if firstSliceSegmentInPic = 0 then skipCodes ndebug data 1 rbsp else pure rbsp

/-- The loop of `slice_h265` over the negative pictures from `i`: the first one that is used. -/
def firstUsed : (left i : Nat) → Rbsp → Checked (Option Nat)
  | 0, _, _ => pure none
  | left + 1, i, rbsp => do
      let (rbsp, _) ← rbsp.ue ndebug data
      let (rbsp, used) ← rbsp.u ndebug data 1
      if used ≠ 0 then pure (some i) else firstUsed left (i + 1) rbsp

/-- `slice_pic_order_cnt_lsb` and `short_term_ref_pic_set_sps_flag`, which must be zero for the set to be
part of the slice, then its two counts: `num_negative_pics`. -/
def shortTermRefPicSet (bitstream : Bitstream) (rbsp : Rbsp) : Checked (Rbsp × Option Nat) := do
  let rbsp ← skipFields ndebug data [(bitstream.sps + 4) % 2 ^ 32] rbsp
  let (rbsp, fromSps) ← rbsp.u ndebug data 1
  if fromSps ≠ 0 then pure (rbsp, none)
  else do
    let (rbsp, numNegativePics) ← rbsp.ue ndebug data
    if numNegativePics > 16 then pure (rbsp, some numNegativePics)
    else do
      let rbsp ← skipCodes ndebug data 1 rbsp
      pure (rbsp, some numNegativePics)

/-- The part of `slice_h265` that only a NAL unit of type 1 has. -/
def referenceH265 (bitstream : Bitstream) (slice : BitstreamSlice) (rbsp : Rbsp) :
    Checked (Bool × BitstreamSlice) := do
  let slice := { slice with referenceFrame := 0xff }
  let (rbsp, numNegativePics) ← shortTermRefPicSet ndebug data bitstream rbsp
  match numNegativePics with
  | none => pure (true, slice)
  | some numNegativePics =>
      if numNegativePics > 16 then pure (false, slice)
      else do
        let used ← firstUsed ndebug data numNegativePics 0 rbsp
        pure (true, { slice with referenceFrame := used.getD 0xff })

/-- `slice_h265`. -/
def sliceH265 (bitstream : Bitstream) (slice : BitstreamSlice) : Checked (Bool × BitstreamSlice) := do
  let vlc ← Vlc.init address data data.length
  let (vlc, found) ← skipStartcode ndebug data vlc
  if !found then pure (false, slice)
  else do
    let (vlc, nalUnitType) ← nalHeaderH265 ndebug vlc
    if nalUnitType ≠ 1 ∧ nalUnitType ≠ 20 then pure (false, slice)
    else do
      let rbsp ← Rbsp.init ndebug data vlc
      let rbsp ← beforeSliceType ndebug data nalUnitType rbsp
      let (rbsp, sliceType) ← rbsp.ue ndebug data
      let slice := { slice with sliceType := sliceTypeH265 sliceType }
      if nalUnitType = 1 then referenceH265 ndebug data bitstream slice rbsp else pure (true, slice)

end Reading

/-! ## Rewriting the reference -/

section Rewriting
variable (ndebug : Bool)

/-- `d[-2]` and `d[-1]`, the eight bytes before the read position. -/
def dwordsBefore (nal : Vlc) (data : Bytes) : Checked Bytes :=
  if nal.data < 8 then .error .outOfBounds else inBounds (read data (nal.data - 8) 8)

/-- The flag is the first of the valid bits, which are taken to be the last of these bytes. -/
def writeFlag (nal : Vlc) (set : Bool) (data : Bytes) : Checked Bytes := do
  let dwords ← dwordsBefore nal data
  let hi := BitVec.ofNat 64 (ntoh (dwords.take 4))
  let lo := BitVec.ofNat 64 (ntoh (dwords.drop 4))
  let buffer := lo ||| (hi <<< 32)
  let mask ← shiftLeft64 1 (64 - 1 - (64 - (32 - nal.invalidBits)))
  let buffer := if set then buffer ||| mask else buffer &&& ~~~mask
  inBounds (write data (nal.data - 8) (htonl (buffer.toNat / 2 ^ 32) ++ htonl (buffer.toNat % 2 ^ 32)))

/-- The loop over the negative pictures from `i`. -/
def rewriteFlags (referenceFrame : Nat) : (left i : Nat) → Rbsp → Bytes → Checked (Bytes × Bool)
  | 0, _, _, data => pure (data, false)
  | left + 1, i, rbsp, data => do
      let (rbsp, _) ← rbsp.ue ndebug data
      let data ← writeFlag rbsp.nal (i = referenceFrame) data
      if i = referenceFrame then pure (data, true)
      else do
        let (rbsp, _) ← rbsp.u ndebug data 1
        rewriteFlags referenceFrame left (i + 1) rbsp data

/-- `slice_set_reference_frame_h265`. The test for type 20 behind the one for type 1 never holds. -/
def sliceSetReferenceFrameH265 (address : Nat) (bitstream : Bitstream) (data : Bytes) (referenceFrame : Nat) :
    Checked (Bytes × Bool) := do
  let vlc ← Vlc.init address data data.length
  let (vlc, found) ← skipStartcode ndebug data vlc
  if !found then pure (data, false)
  else do
    let (vlc, nalUnitType) ← nalHeaderH265 ndebug vlc
    if nalUnitType ≠ 1 then pure (data, false)
    else do
      let rbsp ← Rbsp.init ndebug data vlc
      let rbsp ← beforeSliceType ndebug data nalUnitType rbsp
      let (rbsp, sliceType) ← rbsp.ue ndebug data
      if sliceType ≠ 1 then pure (data, false)
      else do
        let (rbsp, numNegativePics) ← shortTermRefPicSet ndebug data bitstream rbsp
        match numNegativePics with
        | none => pure (data, false)
        | some numNegativePics =>
            if numNegativePics > 16 then pure (data, false)
            else rewriteFlags ndebug referenceFrame numNegativePics 0 rbsp data

end Rewriting

namespace Bitstream
variable (ndebug : Bool) (address : Nat) (bitstream : Bitstream) (data : Bytes)

/-- `chiaki_bitstream_header`. -/
def header : Checked (Bitstream × Bool) :=
  match bitstream.codec with
  | .h264 => headerH264 ndebug address data { bitstream with sps := 0 }
  | _ => headerH265 ndebug address data { bitstream with sps := 0 }

/-- `chiaki_bitstream_slice`. -/
def slice (stack : BitstreamSlice) : Checked (Bool × BitstreamSlice) :=
  match bitstream.codec with
  | .h264 => sliceH264 ndebug address data bitstream stack
  | _ => sliceH265 ndebug address data bitstream stack

/-- `chiaki_bitstream_slice_set_reference_frame`. -/
def sliceSetReferenceFrame (referenceFrame : Nat) : Checked (Bytes × Bool) :=
  match bitstream.codec with
  | .h264 => pure (data, false)
  | _ => sliceSetReferenceFrameH265 ndebug address bitstream data referenceFrame

end Bitstream
end Chiaki
