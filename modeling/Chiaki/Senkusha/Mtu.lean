import Chiaki.Lib.Bisection
import Chiaki.Senkusha.State

/-!
# The search for the MTU

`senkusha_run_mtu_in_test` and `senkusha_run_mtu_out_test`. Both are a bisection whose tests are repeated. The first
one starts at the upper bound, the second one at the result of the first.
-/

namespace Chiaki
open Memory Bisection

def mtuUdpPacketAdd : Nat := 0x1c
structure MtuCommand where
  id : Nat
  mtuReq : Nat
  num : Nat

structure ClientMtuCommand where
  id : Nat
  state : Bool
  mtuReq : Nat
  mtuDown : Nat

/-- What is outside: the result of sending something, and what arrives until the wait for an answer ends. -/
structure SenkushaNetwork where
  mtuCommand : MtuCommand → ErrorCode × List SenkushaEvent
  /-- With the number that the message is given. -/
  clientMtuCommand : ClientMtuCommand → ErrorCode × Nat × List SenkushaEvent
  /-- The packet that is sent after this many others. -/
  ping : Nat → Bytes → ErrorCode × List SenkushaEvent
  /-- `chiaki_random_32`. -/
  random : Nat → Nat
  /-- `malloc` gives a buffer. -/
  allocates : Bool

/-! ## The search -/

section Search
variable {σ : Type}

end Search

section Tests
variable (net : SenkushaNetwork)

theorem noData_short : ([] : Bytes).length < 2 ^ 16 := Nat.two_pow_pos 16

/-- The header of a ping. -/
def pingPacket (pingTestIndex pingIndex : Nat) : TakionAVPacket where
  packetIndex := 0
  frameIndex := pingTestIndex
  usesNaluInfoStructs := false
  isVideo := false
  isHaptics := false
  unitIndex := pingIndex
  unitsInFrameTotal := 0x800
  unitsInFrameFec := 0
  codec := 0xff
  wordAt0x18 := 0
  adaptiveStreamIndex := 0
  byteAt0x2c := 0
  keyPos := 0
  data := []
  dataSize_lt := noData_short

end Tests

/-! ## The path -/

/-- A ping with this index and tag. -/
def IsPing (pingIndex pingTag : Nat) (packet : Bytes) : Prop :=
  ∃ rest, packet = v7AvHeader (pingPacket 0 pingIndex) ++ (htonl 0 ++ (htonl pingTag ++ rest))

/-- The commands arrive and are answered, and the packets that get through are the ones up to a size. The index in a
packet for a command has 16 bits, the one in a ping has 11. -/
structure SenkushaNetwork.Delivers (net : SenkushaNetwork) (threshold : Nat) : Prop where
  mtuSent : ∀ command, (net.mtuCommand command).1 = .success ∧ .stop ∉ (net.mtuCommand command).2
  mtuAnswered : ∀ command, command.mtuReq ≤ threshold → command.id < 2 ^ 16 →
    ∃ packet, .av packet ∈ (net.mtuCommand command).2 ∧ Senkusha.isMtuResponse command.id packet
  mtuLost : ∀ command, threshold < command.mtuReq →
    ∀ packet, .av packet ∈ (net.mtuCommand command).2 → Senkusha.isMtuResponse command.id packet = false
  clientMtuSent : ∀ command, (net.clientMtuCommand command).1 = .success ∧
    .stop ∉ (net.clientMtuCommand command).2.2 ∧
    .dataAck (net.clientMtuCommand command).2.1 ∈ (net.clientMtuCommand command).2.2
  clientMtuAnswered : ∀ command, command.state = true →
    ∃ msg, .data (some msg) ∈ (net.clientMtuCommand command).2.2 ∧ Senkusha.isClientMtuCommand command.id msg
  pingGoing : ∀ count packet, .stop ∉ (net.ping count packet).2
  pingAnswered : ∀ count index packet, IsPing index (net.random count) packet → index < 2 ^ 11 →
    packet.length + mtuUdpPacketAdd ≤ threshold → (net.ping count packet).1 = .success ∧
    ∃ pong, .av pong ∈ (net.ping count packet).2 ∧ Senkusha.isPong 0 index (net.random count) pong
  pingLost : ∀ count index packet, IsPing index (net.random count) packet →
    threshold < packet.length + mtuUdpPacketAdd →
    ∀ pong, .av pong ∈ (net.ping count packet).2 → Senkusha.isPong 0 index (net.random count) pong = false
  allocates : net.allocates = true

/-- A command for each size that gets through has an id of 16 bits. -/
def Numbered (retries threshold : Nat) : Nat → List Nat → Prop
  | _, [] => True
  | id, size :: sizes =>
      if size ≤ threshold then (id + 1) % 2 ^ 32 < 2 ^ 16 ∧ Numbered retries threshold ((id + 1) % 2 ^ 32) sizes
      else Numbered retries threshold ((id + retries) % 2 ^ 32) sizes

instance decidableNumbered (retries threshold : Nat) : (id : Nat) → (sizes : List Nat) →
    Decidable (Numbered retries threshold id sizes)
  | _, [] => .isTrue trivial
  | id, size :: sizes =>
      if delivered : size ≤ threshold then
        letI first := decidableNumbered retries threshold ((id + 1) % 2 ^ 32) sizes
        decidable_of_iff ((id + 1) % 2 ^ 32 < 2 ^ 16 ∧ Numbered retries threshold ((id + 1) % 2 ^ 32) sizes)
          (by rw [Numbered, if_pos delivered])
      else
        letI later := decidableNumbered retries threshold ((id + retries) % 2 ^ 32) sizes
        decidable_of_iff (Numbered retries threshold ((id + retries) % 2 ^ 32) sizes)
          (by rw [Numbered, if_neg delivered])

/-! ## A size is tested -/

section Search
variable {σ : Type} {attempt : σ → Nat → Checked (σ × Except ErrorCode Bool)}

end Search

/-! ## The tests of both directions -/

section Delivered
variable {net : SenkushaNetwork} {threshold : Nat} (delivers : net.Delivers threshold)
include delivers

end Delivered

/-! ## Finding the threshold -/

end Chiaki
