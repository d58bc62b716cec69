import Chiaki.Lib.Memory
import Chiaki.NetworkOrder

/-!
# Reading bits

`vl_rbsp.h`. The valid bits stand at the top of a buffer of 64; `invalidBits` counts those missing from
its upper half and goes below zero when the buffer holds more than 32. The bytes themselves are an
argument, because a caller writes to them while it reads.
-/

namespace Chiaki
open Memory

def unsigned (x : Int) : Nat := (x % 2 ^ 32).toNat

def signed (x : Int) : Int := x.bmod (2 ^ 32)

def shiftLeft64 (x : BitVec 64) (n : Int) : Checked (BitVec 64) :=
  if 0 ≤ n ∧ n < 64 then pure (x <<< n.toNat) else .error .shift

def shiftRight64 (x : BitVec 64) (n : Int) : Checked (BitVec 64) :=
  if 0 ≤ n ∧ n < 64 then pure (x >>> n.toNat) else .error .shift

/-- `struct vl_vlc`. The pointers are offsets from `address`, where the bytes begin. -/
structure Vlc where
  address : Nat
  buffer : BitVec 64
  invalidBits : Int
  data : Nat
  dataEnd : Nat
  bytesLeft : Nat

namespace Vlc

/-- `vl_vlc_valid_bits`. -/
def validBits (vlc : Vlc) : Nat := unsigned (32 - vlc.invalidBits)

/-- `vl_vlc_bits_left`. -/
def bitsLeft (vlc : Vlc) : Checked Nat :=
  let bytesLeft := signed ((vlc.dataEnd - vlc.data : Nat) + vlc.bytesLeft)
  if bytesLeft * 8 < -2 ^ 31 ∨ 2 ^ 31 ≤ bytesLeft * 8 then .error .signedOverflow
  else pure (unsigned (bytesLeft * 8 + vlc.validBits))

/-- The loops that take in single bytes, `left` of them. -/
def readBytes (input : Bytes) : (left : Nat) → Vlc → Checked Vlc
  | 0, vlc => pure vlc
  | left + 1, vlc => do
      let byte ← inBounds input[vlc.data]?
      let shifted ← shiftLeft64 (BitVec.ofNat 64 byte.toNat) (24 + vlc.invalidBits)
      readBytes input left
        { vlc with
          buffer := vlc.buffer ||| shifted
          data := vlc.data + 1
          invalidBits := vlc.invalidBits - 8 }

/-- `vl_vlc_align_data_ptr`. -/
def alignDataPtr (input : Bytes) (vlc : Vlc) : Checked Vlc :=
  vlc.readBytes input (min ((4 - (vlc.address + vlc.data) % 4) % 4) (vlc.dataEnd - vlc.data))

/-- `vl_vlc_fillbits`. -/
def fillbits (input : Bytes) (vlc : Vlc) : Checked Vlc :=
  if vlc.invalidBits ≤ 0 then pure vlc
  else if vlc.dataEnd - vlc.data ≥ 4 then do
    let dword ← inBounds (read input vlc.data 4)
    let shifted ← shiftLeft64 (BitVec.ofNat 64 (ntoh dword)) vlc.invalidBits
    pure { vlc with
      buffer := vlc.buffer ||| shifted
      data := vlc.data + 4
      invalidBits := vlc.invalidBits - 32 }
  else vlc.readBytes input (vlc.dataEnd - vlc.data)

/-- `vl_vlc_init`. -/
def init (address : Nat) (input : Bytes) (size : Nat) : Checked Vlc := do
  let vlc ← alignDataPtr input
    { address := address, buffer := 0, invalidBits := 32, data := 0, dataEnd := size, bytesLeft := size }
  vlc.fillbits input

section Debug
variable (ndebug : Bool)

/-- `vl_vlc_peekbits`. -/
def peekbits (vlc : Vlc) (numBits : Nat) : Checked Nat := do
  assert (ndebug || decide (numBits ≤ vlc.validBits) || decide (vlc.dataEnd ≤ vlc.data))
  let value ← shiftRight64 vlc.buffer (unsigned (64 - numBits))
  pure (value.toNat % 2 ^ 32)

/-- `vl_vlc_eatbits`. -/
def eatbits (vlc : Vlc) (numBits : Nat) : Checked Vlc := do
  assert (ndebug || decide (numBits ≤ vlc.validBits))
  let buffer ← shiftLeft64 vlc.buffer numBits
  pure { vlc with buffer := buffer, invalidBits := signed (vlc.invalidBits + numBits) }

/-- `vl_vlc_get_uimsbf`. -/
def getUimsbf (vlc : Vlc) (numBits : Nat) : Checked (Vlc × Nat) := do
  assert (ndebug || decide (numBits ≤ vlc.validBits))
  let value ← shiftRight64 vlc.buffer (unsigned (64 - numBits))
  let vlc ← vlc.eatbits ndebug numBits
  pure (vlc, value.toNat % 2 ^ 32)

/-- The loop of `vl_vlc_search_byte` over the bit buffer: whether the value is there. -/
def searchBuffer (value : Nat) : (fuel : Nat) → Vlc → Checked (Vlc × Bool)
  | 0, _ => .error .endless
  | fuel + 1, vlc =>
      if vlc.validBits = 0 then pure (vlc, false)
      else do
        let front ← vlc.peekbits ndebug 8
        if front = value then pure (vlc, true)
        else do
          let vlc ← vlc.eatbits ndebug 8
          searchBuffer value fuel vlc

/-- The loop of `vl_vlc_search_byte` over the bytes behind the buffer, `left` of them. -/
def searchBytes (input : Bytes) (value : Nat) : (left : Nat) → Vlc → Checked (Vlc × Bool)
  | 0, vlc => pure (vlc, false)
  | left + 1, vlc => do
      let byte ← inBounds input[vlc.data]?
      if byte.toNat = value then do
        let vlc ← vlc.alignDataPtr input
        let vlc ← vlc.fillbits input
        pure (vlc, true)
      else searchBytes input value left { vlc with data := vlc.data + 1 }

/-- `vl_vlc_search_byte` with `num_bits` `~0u`, as its only caller has it. After nine turns the buffer
is zero. -/
def searchByte (input : Bytes) (value : Nat) (vlc : Vlc) : Checked (Vlc × Bool) := do
  assert (ndebug || decide (vlc.validBits % 8 = 0))
  let (vlc, found) ← vlc.searchBuffer ndebug value 9
  if found then do
    let vlc ← vlc.fillbits input
    pure (vlc, true)
  else vlc.searchBytes input value (vlc.dataEnd - vlc.data)

/-- `vl_vlc_removebits`. -/
def removebits (vlc : Vlc) (pos numBits : Nat) : Checked Vlc := do
  let below ← shiftRight64 (BitVec.allOnes 64) (unsigned (pos + numBits))
  let lo ← shiftLeft64 (vlc.buffer &&& below) numBits
  let above ← shiftLeft64 (BitVec.allOnes 64) (unsigned (64 - pos))
  pure { vlc with
    buffer := lo ||| (vlc.buffer &&& above)
    invalidBits := signed (vlc.invalidBits + numBits) }

/-- `vl_vlc_limit`. -/
def limit (input : Bytes) (vlc : Vlc) (bitsLeft : Nat) : Checked Vlc := do
  let all ← vlc.bitsLeft
  assert (ndebug || decide (bitsLeft ≤ all))
  let vlc ← vlc.fillbits input
  if bitsLeft < vlc.validBits then do
    let mask ← shiftLeft64 (BitVec.allOnes 64) (signed (32 - bitsLeft) + 32)
    pure { vlc with
      invalidBits := signed (32 - bitsLeft)
      buffer := vlc.buffer &&& mask
      dataEnd := vlc.data
      bytesLeft := 0 }
  else do
    assert (ndebug || decide ((bitsLeft - vlc.validBits) % 8 = 0))
    let bytesLeft := (bitsLeft - vlc.validBits) / 8
    if bytesLeft < vlc.dataEnd - vlc.data then
      pure { vlc with dataEnd := vlc.data + bytesLeft, bytesLeft := 0 }
    else pure { vlc with bytesLeft := bytesLeft - (vlc.dataEnd - vlc.data) }

end Debug
end Vlc

/-- `struct vl_rbsp`. -/
structure Rbsp where
  nal : Vlc
  escaped : Nat

namespace Rbsp
variable (ndebug : Bool)

/-- Whether a start code is next. -/
def atStartcode (nal : Vlc) : Checked Bool := do
  let three ← nal.peekbits ndebug 24
  if three = 1 then pure true
  else do
    let four ← nal.peekbits ndebug 32
    pure (four = 1)

/-- The loop of `vl_rbsp_init` to the end of the NAL unit. Every turn takes eight bits, so that with this
much fuel it ends if it ever does. -/
def findEnd (input : Bytes) (bitsLeft : Nat) (rbsp : Vlc) : (fuel : Nat) → (nal : Vlc) → Checked Vlc
  | 0, _ => .error .endless
  | fuel + 1, nal => do
      let (nal, found) ← nal.searchByte ndebug input 0
      if !found then pure rbsp
      else do
        let next ← atStartcode ndebug nal
        if next then do
          let left ← nal.bitsLeft
          rbsp.limit ndebug input (unsigned (bitsLeft - left))
        else do
          let nal ← nal.eatbits ndebug 8
          findEnd input bitsLeft rbsp fuel nal

/-- The loop of `vl_rbsp_init` that removes emulation prevention bytes. From bit 72 on peeking fails. -/
def unescapeFirst (valid : Nat) : (fuel i : Nat) → (nal : Vlc) → Checked Vlc
  | 0, _, _ => .error .endless
  | fuel + 1, i, nal =>
      if i > valid then pure nal
      else do
        let bits ← nal.peekbits ndebug i
        if bits % 2 ^ 24 = 3 then do
          let nal ← nal.removebits (i - 8) 8
          unescapeFirst valid fuel (i + 16) nal
        else unescapeFirst valid fuel (i + 8) nal

/-- `vl_rbsp_init` with `num_bits` `~0`, as its callers have it. -/
def init (input : Bytes) (nal : Vlc) : Checked Rbsp := do
  let bitsLeft ← nal.bitsLeft
  let nal ← findEnd ndebug input bitsLeft nal (input.length + 9) nal
  let nal ← unescapeFirst ndebug nal.validBits 9 24 nal
  pure { nal := nal, escaped := if nal.validBits ≥ 16 then 16 else if nal.validBits ≥ 8 then 8 else 0 }

/-- The loop of `vl_rbsp_fillbits` that removes emulation prevention bytes. -/
def unescape : (fuel i bits : Nat) → Rbsp → Checked Rbsp
  | 0, _, _, _ => .error .endless
  | fuel + 1, i, bits, rbsp =>
      if i > bits then pure rbsp
      else do
        let front ← rbsp.nal.peekbits ndebug i
        if front % 2 ^ 24 = 3 then do
          let nal ← rbsp.nal.removebits (unsigned (i - 8)) 8
          unescape fuel (i + 16) (bits - 8) { nal := nal, escaped := bits - i }
        else unescape fuel (i + 8) bits rbsp

/-- `vl_rbsp_fillbits`. -/
def fillbits (input : Bytes) (rbsp : Rbsp) : Checked Rbsp :=
  if rbsp.nal.validBits ≥ 32 then pure rbsp
  else do
    let nal ← rbsp.nal.fillbits input
    let left ← nal.bitsLeft
    if left < 24 then pure { rbsp with nal := nal }
    else
      unescape ndebug 9 (unsigned (rbsp.nal.validBits - rbsp.escaped + 24)) nal.validBits
        { nal := nal, escaped := 16 }

/-- Filling for `n` bits: once more when they are many. -/
def fillbitsFor (input : Bytes) (rbsp : Rbsp) (n : Nat) : Checked Rbsp := do
  let rbsp ← rbsp.fillbits ndebug input
  if n > 16 then rbsp.fillbits ndebug input else pure rbsp

/-- `vl_rbsp_u`. -/
def u (input : Bytes) (rbsp : Rbsp) (n : Nat) : Checked (Rbsp × Nat) :=
  if n = 0 then pure (rbsp, 0)
  else do
    let rbsp ← rbsp.fillbitsFor ndebug input n
    let (nal, value) ← rbsp.nal.getUimsbf ndebug n
    pure ({ rbsp with nal := nal }, value)

/-- The loop of `vl_rbsp_ue`. It does not fill the buffer, which is zero after 64 turns. -/
def countZeros : (fuel : Nat) → (nal : Vlc) → (bits : Nat) → Checked (Vlc × Nat)
  | 0, _, _ => .error .endless
  | fuel + 1, nal, bits => do
      let (nal, value) ← nal.getUimsbf ndebug 1
      if value = 0 then countZeros fuel nal (bits + 1) else pure (nal, bits)

/-- `1 << bits`, an `int`. -/
def one (bits : Nat) : Checked Nat :=
  if bits < 31 then pure (2 ^ bits) else if bits = 31 then .error .signedOverflow else .error .shift

/-- `vl_rbsp_ue`. -/
def ue (input : Bytes) (rbsp : Rbsp) : Checked (Rbsp × Nat) := do
  let rbsp ← rbsp.fillbits ndebug input
  let (nal, bits) ← countZeros ndebug 65 rbsp.nal 0
  let least ← one bits
  let (rbsp, rest) ← u ndebug input { rbsp with nal := nal } bits
  pure (rbsp, (least - 1 + rest) % 2 ^ 32)

end Rbsp
end Chiaki
