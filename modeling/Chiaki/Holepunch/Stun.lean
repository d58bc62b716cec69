import Chiaki.Takion.Packet

/-!
# The answer of a STUN server

The checks and the loop over the attributes of `stun_get_external_address_from_server`. The response is what was received;
a read behind it is a fault.
-/

namespace Chiaki

def stunHeaderSize : Nat := 20
def stunMsgTypeBindingRequest : Nat := 0x0001
def stunMsgTypeBindingResponse : Nat := 0x0101
def stunMagicCookie : Nat := 0x2112a442
def stunTransactionIdLength : Nat := 12
def stunAttribMappedAddress : Nat := 0x0001
def stunAttribXorMappedAddress : Nat := 0x0020
def stunMappedAddrFamilyIpv4 : UInt8 := 0x01
def stunMappedAddrFamilyIpv6 : UInt8 := 0x02

/-- `binding_req`, with the random transaction id. -/
def stunBindingRequest (transactionId : Fin stunTransactionIdLength → UInt8) : Bytes :=
  htons stunMsgTypeBindingRequest ++ htons 0 ++ htonl stunMagicCookie ++ List.ofFn transactionId

inductive StunAddress where
  | ipv4 (bytes : Bytes)
  | ipv6 (bytes : Bytes)
  deriving DecidableEq, Repr

structure StunMappedAddress where
  address : StunAddress
  port : Nat
  deriving DecidableEq, Repr

def xorBytes (a b : Bytes) : Bytes := List.zipWith (· ^^^ ·) a b

/-- The address in an attribute. `none` is an address of a family that is not known. -/
def stunAddress (request response : Bytes) (responsePos : Nat) (xored : Bool) : Checked (Option StunMappedAddress) := do
  let family ← byteAt response (responsePos + 5)
  if family = stunMappedAddrFamilyIpv4 then do
    let port ← field response (responsePos + 6) 2
    let addr ← field response (responsePos + 8) 4
    if xored then
      pure (some ⟨.ipv4 (xorBytes addr (htonl stunMagicCookie)), ntoh (xorBytes port (htonl stunMagicCookie))⟩)
    else pure (some ⟨.ipv4 addr, ntoh port⟩)
  else if family = stunMappedAddrFamilyIpv6 then do
    let port ← field response (responsePos + 6) 2
    let addr ← field response (responsePos + 8) 16
    if xored then do
      -- the magic cookie and the transaction id
      let mask ← field request 4 16
      pure (some ⟨.ipv6 (xorBytes addr mask), ntoh (xorBytes port (htonl stunMagicCookie))⟩)
    else pure (some ⟨.ipv6 addr, ntoh port⟩)
  else pure none

def stunAddressType (type : Nat) : Bool := type = stunAttribMappedAddress || type = stunAttribXorMappedAddress

/-- `response_pos`, of 16 bits, behind an attribute. -/
def stunNextPos (responsePos attrLength : Nat) : Nat := (responsePos + (2 + 2 + attrLength)) % 2 ^ 16

/-- The loop over the attributes. A round depends on the position only, so that one round more than there are bytes
never ends. -/
def stunAttributes (request response : Bytes) : (fuel responsePos : Nat) → Checked (Option StunMappedAddress)
  | 0, _ => .error .endless
  | fuel + 1, responsePos =>
      if responsePos < response.length then do
        let attrType ← read16 response responsePos
        let attrLength ← read16 response (responsePos + 2)
        if stunAddressType attrType then
          stunAddress request response responsePos (attrType = stunAttribXorMappedAddress)
        else stunAttributes request response fuel (stunNextPos responsePos attrLength)
      else pure none

/-- `stun_get_external_address_from_server` from the response on. `none` is `false`. -/
def stunResponse (request response : Bytes) : Checked (Option StunMappedAddress) := do
  let type ← field response 0 2
  if type ≠ htons stunMsgTypeBindingResponse then pure none
  else do
    let length ← read16 response 2
    if response.length ≠ length + stunHeaderSize then pure none
    else do
      let cookie ← field response 4 4
      if cookie ≠ htonl stunMagicCookie then pure none
      else do
        let id ← field response 8 stunTransactionIdLength
        let sent ← field request 8 stunTransactionIdLength
        if id ≠ sent then pure none
        else stunAttributes request response (response.length + 1) stunHeaderSize

/-! ## The attributes -/

/-- The type and the length of an attribute are in the datagram. -/
def StunAttributeAt (response : Bytes) (pos type length : Nat) : Prop :=
  read16 response pos = .ok type ∧ read16 response (pos + 2) = .ok length

/-- The loop goes on at another position. -/
def StunSkips (response : Bytes) (pos next : Nat) : Prop := pos < response.length ∧
  ∃ type length, StunAttributeAt response pos type length ∧ stunAddressType type = false ∧ next = stunNextPos pos length

inductive StunVisited (response : Bytes) : Nat → Prop where
  | first : StunVisited response stunHeaderSize
  | next {pos next : Nat} (visited : StunVisited response pos) (skips : StunSkips response pos next) :
      StunVisited response next

/-- The length of an attribute with an address, up to the bytes that are used. -/
def stunAddressEnd (family : UInt8) : Nat :=
  if family = stunMappedAddrFamilyIpv4 then 12 else if family = stunMappedAddrFamilyIpv6 then 24 else 6

/-- The attributes from a position on: the header of each one is in the datagram and so is the address, and no attribute
ends behind the largest position. -/
inductive StunAttributesFit (response : Bytes) : Nat → Prop where
  | ended {pos : Nat} (behind : response.length ≤ pos) : StunAttributesFit response pos
  | skipped {pos type length : Nat} (header : StunAttributeAt response pos type length)
      (other : stunAddressType type = false) (small : pos + (2 + 2 + length) < 2 ^ 16)
      (later : StunAttributesFit response (pos + (2 + 2 + length))) : StunAttributesFit response pos
  | address {pos type length : Nat} {family : UInt8} (header : StunAttributeAt response pos type length)
      (isAddress : stunAddressType type = true) (known : byteAt response (pos + 5) = .ok family)
      (fits : pos + stunAddressEnd family ≤ response.length) : StunAttributesFit response pos

/-- A response to the request, as far as its header goes. -/
def StunHeader (transactionId : Fin stunTransactionIdLength → UInt8) (response attributes : Bytes) : Prop :=
  attributes.length < 2 ^ 16 ∧ response = htons stunMsgTypeBindingResponse ++ htons attributes.length ++
    htonl stunMagicCookie ++ List.ofFn transactionId ++ attributes

/-- The message type is in the datagram, and the length if it is the type of a response; and if the whole header is right,
the attributes fit. -/
structure StunFits (transactionId : Fin stunTransactionIdLength → UInt8) (response : Bytes) : Prop where
  type : 2 ≤ response.length
  length : response.take 2 = htons stunMsgTypeBindingResponse → 4 ≤ response.length
  attributes : ∀ attributes, StunHeader transactionId response attributes → StunAttributesFit response stunHeaderSize

/-- A result is returned, from bytes in the datagram only, and no header of an attribute is looked at again. -/
structure StunSafe (transactionId : Fin stunTransactionIdLength → UInt8) (response : Bytes) : Prop where
  returned : ∃ result, stunResponse (stunBindingRequest transactionId) response = .ok result
  ahead : ∀ attributes, StunHeader transactionId response attributes →
    ∀ pos next, StunVisited response pos → StunSkips response pos next → pos + (2 + 2) ≤ next

section Attributes
variable {response : Bytes} {pos : Nat}

theorem length_stunBindingRequest (transactionId : Fin stunTransactionIdLength → UInt8) :
    (stunBindingRequest transactionId).length = stunHeaderSize := by
  simp only [stunBindingRequest, List.length_append, length_htons, length_htonl, List.length_ofFn]
  rfl

theorem stunAddress_ok (transactionId : Fin stunTransactionIdLength → UInt8) (xored : Bool) {family : UInt8}
    (known : byteAt response (pos + 5) = .ok family) (fits : pos + stunAddressEnd family ≤ response.length) :
    ∃ result, stunAddress (stunBindingRequest transactionId) response pos xored = .ok result := by
  rw [stunAddress, known, ok_bind]
  unfold stunAddressEnd at fits
  split
  · rename_i ipv4
    rw [if_pos ipv4] at fits
    rw [field_eq (by omega), field_eq (by omega)]
    cases xored <;> exact ⟨_, rfl⟩
  · rename_i ipv4
    rw [if_neg ipv4] at fits
    split
    · rename_i ipv6
      rw [if_pos ipv6] at fits
      rw [field_eq (by omega), field_eq (by omega)]
      cases xored with
      | false => exact ⟨_, rfl⟩
      | true =>
          rw [ok_bind, ok_bind, if_pos rfl, field_eq (length_stunBindingRequest transactionId).ge]
          exact ⟨_, rfl⟩
    · exact ⟨_, rfl⟩

theorem stunAddress_fits {request : Bytes} {xored : Bool} {result : Option StunMappedAddress}
    (returned : stunAddress request response pos xored = .ok result) :
    ∃ family, byteAt response (pos + 5) = .ok family ∧ pos + stunAddressEnd family ≤ response.length := by
  obtain ⟨family, known, returned⟩ := bind_eq_ok returned
  refine ⟨family, known, ?_⟩
  unfold stunAddressEnd
  split at returned
  · rename_i ipv4
    obtain ⟨port, -, returned⟩ := bind_eq_ok returned
    obtain ⟨addr, got, -⟩ := bind_eq_ok returned
    have inside := field_inside got
    rw [if_pos ipv4]
    omega
  · rename_i ipv4
    split at returned
    · rename_i ipv6
      obtain ⟨port, -, returned⟩ := bind_eq_ok returned
      obtain ⟨addr, got, -⟩ := bind_eq_ok returned
      have inside := field_inside got
      rw [if_neg ipv4, if_pos ipv6]
      omega
    · rename_i ipv6
      rw [if_neg ipv4, if_neg ipv6]
      exact byteAt_inside known

theorem StunAttributesFit.returned {transactionId : Fin stunTransactionIdLength → UInt8} (fit : StunAttributesFit response pos)
    {fuel : Nat} (enough : response.length < fuel + pos) :
    ∃ result, stunAttributes (stunBindingRequest transactionId) response (fuel + 1) pos = .ok result := by
  induction fit generalizing fuel with
  | ended behind =>
      rw [stunAttributes, if_neg (not_lt.mpr behind)]
      exact ⟨_, rfl⟩
  | skipped header other small later ih =>
      rename_i pos type length
      have inside := read16_inside header.2
      obtain ⟨fuel, rfl⟩ : ∃ more, fuel = more + 1 := ⟨fuel - 1, by omega⟩
      rw [stunAttributes, if_pos (by omega), header.1, ok_bind, header.2, ok_bind, if_neg (by simp [other]), stunNextPos,
        Nat.mod_eq_of_lt small]
      exact ih (by omega)
  | address header isAddress known fits =>
      rename_i pos type length family
      have inside := read16_inside header.1
      rw [stunAttributes, if_pos (by omega), header.1, ok_bind, header.2, ok_bind, if_pos isAddress]
      exact stunAddress_ok transactionId _ known fits

theorem StunAttributesFit.next (fit : StunAttributesFit response pos) {next : Nat} (skips : StunSkips response pos next) :
    pos + (2 + 2) ≤ next ∧ StunAttributesFit response next := by
  obtain ⟨inside, type, length, ⟨atType, atLength⟩, other, rfl⟩ := skips
  cases fit with
  | ended behind => exact absurd inside (not_lt.mpr behind)
  | skipped header other' small later =>
      obtain rfl := Except.ok.inj (atLength.symm.trans header.2)
      rw [stunNextPos, Nat.mod_eq_of_lt small]
      exact ⟨by omega, later⟩
  | address header isAddress known fits =>
      obtain rfl := Except.ok.inj (atType.symm.trans header.1)
      rw [other] at isAddress
      cases isAddress

theorem StunAttributesFit.visited (fit : StunAttributesFit response stunHeaderSize) (visited : StunVisited response pos) :
    StunAttributesFit response pos := by
  induction visited with
  | first => exact fit
  | next visited skips ih => exact (ih.next skips).2

theorem StunVisited.lt (visited : StunVisited response pos) : pos < 2 ^ 16 := by
  cases visited with
  | first => decide
  | next visited skips =>
      obtain ⟨-, type, length, -, -, rfl⟩ := skips
      exact Nat.mod_lt _ (by decide)

theorem stunNextPos_small {length : Nat} (narrow : length < 2 ^ 16) (inside : pos < 2 ^ 16)
    (ahead : pos + (2 + 2) ≤ stunNextPos pos length) : pos + (2 + 2 + length) < 2 ^ 16 := by
  unfold stunNextPos at ahead
  omega

/-- A round of the loop that has a result: it is the last one, or the next one has the same result. -/
theorem stunAttributes_round {request : Bytes} {fuel : Nat} {result : Option StunMappedAddress}
    (returned : stunAttributes request response (fuel + 1) pos = .ok result) :
    (response.length ≤ pos ∧ result = none) ∨
    (∃ type length, StunAttributeAt response pos type length ∧ stunAddressType type = true ∧
      stunAddress request response pos (type = stunAttribXorMappedAddress) = .ok result) ∨
    (∃ type length, pos < response.length ∧ StunAttributeAt response pos type length ∧ stunAddressType type = false ∧
      stunAttributes request response fuel (stunNextPos pos length) = .ok result) := by
  rw [stunAttributes] at returned
  split at returned
  · rename_i inside
    obtain ⟨type, atType, returned⟩ := bind_eq_ok returned
    obtain ⟨length, atLength, returned⟩ := bind_eq_ok returned
    cases isAddress : stunAddressType type with
    | true =>
        rw [isAddress, if_pos rfl] at returned
        exact .inr (.inl ⟨type, length, ⟨atType, atLength⟩, isAddress, returned⟩)
    | false =>
        rw [isAddress, if_neg Bool.false_ne_true] at returned
        exact .inr (.inr ⟨type, length, inside, ⟨atType, atLength⟩, isAddress, returned⟩)
  · rename_i outside
    exact .inl ⟨not_lt.mp outside, (Except.ok.inj returned).symm⟩

theorem stunAttributesFit_of_returned {request : Bytes}
    (ahead : ∀ pos next, StunVisited response pos → StunSkips response pos next → pos + (2 + 2) ≤ next)
    {fuel : Nat} (visited : StunVisited response pos) {result : Option StunMappedAddress}
    (returned : stunAttributes request response fuel pos = .ok result) :
    StunAttributesFit response pos := by
  induction fuel generalizing pos with
  | zero => cases returned
  | succ fuel ih =>
      rcases stunAttributes_round returned with ended | ⟨type, length, header, isAddress, decoded⟩ |
        ⟨type, length, inside, header, other, returned⟩
      · exact .ended ended.1
      · obtain ⟨family, known, fits⟩ := stunAddress_fits decoded
        exact .address header isAddress known fits
      · have skips : StunSkips response pos (stunNextPos pos length) := ⟨inside, type, length, header, other, rfl⟩
        have further := ahead pos _ visited skips
        have small : pos + (2 + 2 + length) < 2 ^ 16 := stunNextPos_small (read16_lt header.2) visited.lt further
        have later := ih (visited.next skips) returned
        rw [stunNextPos, Nat.mod_eq_of_lt small] at later
        exact .skipped header other small later

end Attributes

/-! ## The header -/

section Header
variable {transactionId : Fin stunTransactionIdLength → UInt8} {response : Bytes}

theorem field_transactionId :
    field (stunBindingRequest transactionId) 8 stunTransactionIdLength = .ok (List.ofFn transactionId) := by
  rw [field_eq (length_stunBindingRequest transactionId).ge]
  apply congrArg Except.ok
  exact List.take_of_length_le List.length_ofFn.le

theorem StunHeader.parsed {attributes : Bytes} (header : StunHeader transactionId response attributes) :
    stunResponse (stunBindingRequest transactionId) response =
      stunAttributes (stunBindingRequest transactionId) response (response.length + 1) stunHeaderSize := by
  obtain ⟨small, eq⟩ := header
  have size : response.length = attributes.length + stunHeaderSize := by
    rw [eq]
    simp only [List.length_append, length_htons, length_htonl, List.length_ofFn]
    rw [stunTransactionIdLength, stunHeaderSize]
    omega
  have inside := size
  rw [stunHeaderSize] at inside
  have length : ntoh ((response.drop 2).take 2) = attributes.length := by
    have bytes : (response.drop 2).take 2 = htons attributes.length := by
      rw [eq]
      rfl
    rw [bytes, ntoh_htons, Nat.mod_eq_of_lt small]
  have id : (response.drop 8).take stunTransactionIdLength = List.ofFn transactionId := by
    have rest : response.drop 8 = List.ofFn transactionId ++ attributes := by
      rw [eq]
      rfl
    rw [rest, List.take_left' List.length_ofFn]
  rw [stunResponse, field_eq (by omega), ok_bind, if_neg (by rw [eq]; exact not_not.mpr rfl), read16_eq (by omega), ok_bind,
    length, if_neg (not_not.mpr size), field_eq (by omega), ok_bind, if_neg (by rw [eq]; exact not_not.mpr rfl),
    field_eq (by rw [stunTransactionIdLength]; omega), ok_bind, field_transactionId, ok_bind, id, if_neg (not_not.mpr rfl)]

theorem stunResponse_cases (type : 2 ≤ response.length)
    (length : response.take 2 = htons stunMsgTypeBindingResponse → 4 ≤ response.length) :
    (∃ attributes, StunHeader transactionId response attributes) ∨
      stunResponse (stunBindingRequest transactionId) response = .ok none := by
  rw [stunResponse, field_eq (by omega), ok_bind, List.drop_zero]
  split
  · exact .inr rfl
  rename_i isResponse
  have isResponse := not_not.mp isResponse
  have inside := length isResponse
  rw [read16_eq (by omega), ok_bind]
  split
  · exact .inr rfl
  rename_i size
  have size := not_not.mp size
  rw [stunHeaderSize] at size
  rw [field_eq (by omega), ok_bind]
  split
  · exact .inr rfl
  rename_i cookie
  rw [field_eq (by rw [stunTransactionIdLength]; omega), ok_bind, field_transactionId, ok_bind]
  split
  · exact .inr rfl
  rename_i id
  left
  refine ⟨response.drop 20, ?_, ?_⟩
  · rw [List.length_drop, show response.length - 20 = ntoh ((response.drop 2).take 2) by omega]
    exact (ntoh_lt _).trans_le (Nat.pow_le_pow_right (by decide) (Nat.mul_le_mul_left 8 (List.length_take_le 2 _)))
  · rw [List.length_drop, show response.length - 20 = ntoh ((response.drop 2).take 2) by omega,
      htons_ntoh (by rw [List.length_take, List.length_drop]; omega), ← isResponse, ← not_not.mp cookie, ← not_not.mp id,
      ← List.take_add, ← List.take_add, ← List.take_add]
    exact (List.take_append_drop 20 response).symm

end Header

theorem stunSafe_iff (transactionId : Fin stunTransactionIdLength → UInt8) (response : Bytes) :
    StunSafe transactionId response ↔ StunFits transactionId response := by
  constructor
  · rintro ⟨⟨result, returned⟩, ahead⟩
    have type : 2 ≤ response.length := by
      obtain ⟨bytes, got, -⟩ := bind_eq_ok returned
      exact field_inside got
    refine ⟨type, ?_, ?_⟩
    · intro isResponse
      rw [stunResponse, field_eq (by omega), ok_bind, List.drop_zero, isResponse, if_neg (not_not.mpr rfl)] at returned
      obtain ⟨length, got, -⟩ := bind_eq_ok returned
      exact read16_inside got
    · intro attributes header
      rw [header.parsed] at returned
      exact stunAttributesFit_of_returned (ahead attributes header) .first returned
  · rintro ⟨type, length, fit⟩
    constructor
    · rcases stunResponse_cases type length with ⟨attributes, header⟩ | refused
      · rw [header.parsed]
        exact (fit attributes header).returned (by rw [stunHeaderSize]; omega)
      · exact ⟨none, refused⟩
    · intro attributes header pos next visited skips
      exact (((fit attributes header).visited visited).next skips).1

/-- A response with one attribute, of the length `0xfffc`: the position stays where it is. -/
theorem stunSafe_longAttribute : ¬ StunSafe (fun _ => 0) (htons stunMsgTypeBindingResponse ++ htons 4 ++
    htonl stunMagicCookie ++ List.replicate 12 0 ++ [0x80, 0x22, 0xff, 0xfc]) := by
  rintro ⟨⟨result, returned⟩, -⟩
  have endless : stunResponse (stunBindingRequest fun _ => 0) (htons stunMsgTypeBindingResponse ++ htons 4 ++
      htonl stunMagicCookie ++ List.replicate 12 0 ++ [0x80, 0x22, 0xff, 0xfc]) = .error .endless := by decide +kernel
  rw [endless] at returned
  cases returned

end Chiaki
