import Chiaki.Takion.Packet

/-!
# RUDP messages

The serializer and the parser of `rudp.c`. A message with its submessage, the submessage of that one and so on is
a list of messages.
-/

namespace Chiaki
open Memory

def rudpConstant : Nat := 0x244F244F

structure RudpMessage where
  type : Nat
  size : Nat
  data : Bytes
  deriving DecidableEq

/-- `rudp_message_serialize`. -/
def rudpMessageSerialize : List RudpMessage → Bytes
  | [] => []
  | message :: sub =>
      htons message.size ++ htonl rudpConstant ++ htons message.type ++ message.data ++ rudpMessageSerialize sub

/-- What the parser writes to one `RudpMessage`, and where in the string it found the data. -/
structure RudpParsed where
  subtype : Nat
  type : Nat
  size : Nat
  remoteCounter : Nat
  dataOffset : Nat
  data : Bytes
  subMessageSize : Nat
  deriving DecidableEq

/-- The string, in which the parser has changed bytes, the messages down to the last one, and the result. -/
structure RudpParse where
  buf : Bytes
  chain : List RudpParsed
  err : ErrorCode

/-- The value of a `size_t` as an `int`. -/
def intOfSize (n : Int) : Int := (n + 2 ^ 31) % 2 ^ 32 - 2 ^ 31

/-- The header of a message. Its first byte loses the flags. -/
def rudpHeader (buf : Bytes) (offset : Nat) : Checked (Bytes × RudpParsed × Nat) := do
  let size ← read16 buf offset
  let type ← read16 buf (offset + 6)
  let subtype ← byteAt buf (offset + 6)
  let flags ← byteAt buf offset
  let buf ← setField buf offset [flags &&& 0x0f]
  let length ← read16 buf offset
  pure (buf, ⟨subtype.toNat, type, size, 0, offset + 8, [], 0⟩, length)

/-- How much data the message has, at most what is left of the string. -/
def rudpDataSize (length : Nat) (remaining : Int) : Int :=
  if length > 8 then min remaining (length - 8) else 0

/-- The data of a message. -/
def rudpData (buf : Bytes) (parsed : RudpParsed) (dataSize : Int) : Checked RudpParsed :=
  if dataSize < 0 then .error .outOfBounds
  else do
    let data ← field buf parsed.dataOffset dataSize.toNat
    pure { parsed with
      data := data
      remoteCounter := if dataSize ≥ 2 then (ntoh (data.take 2) + 1) % 2 ^ 16 else 0 }

/-- `chiaki_rudp_message_parse`. `alloc` says which calls of `malloc` succeed, two for each message. -/
def rudpMessageParse (alloc : Nat → Bool) : (fuel : Nat) → (buf : Bytes) → (offset msgSize : Nat) → Checked RudpParse
  | 0, _, _, _ => .error .endless
  | fuel + 1, buf, offset, msgSize => do
      let (buf, parsed, length) ← rudpHeader buf offset
      let remaining := intOfSize (msgSize - 8)
      let dataSize := rudpDataSize length remaining
      if length > 8 && !alloc 0 then pure ⟨buf, [parsed], .memory⟩
      else do
        let parsed ← rudpData buf parsed dataSize
        let remaining := remaining - dataSize
        if remaining < 8 then pure ⟨buf, [parsed], .success⟩
        else if !alloc 1 then pure ⟨buf, [parsed], .memory⟩
        else do
          let parsed := { parsed with subMessageSize := remaining.toNat % 2 ^ 16 }
          let sub ← rudpMessageParse (fun n => alloc (n + 2)) fuel buf (offset + 8 + dataSize.toNat) remaining.toNat
          pure ⟨sub.buf, parsed :: sub.chain, sub.err⟩

/-- The parser on a whole string. Every message takes at least 8 bytes. -/
def rudpParse (alloc : Nat → Bool) (buf : Bytes) : Checked RudpParse :=
  rudpMessageParse alloc buf.length buf 0 buf.length

end Chiaki
